import CampusAuth.Network.Bodies

/- The responses to one request (`network/egress.rs`, the inner loop of `serve_proxy`).

   Interim responses go through until the last one; how far its body goes depends on the request,
   on the number in its status line and on its fields. Heads that the source reads as they are meant
   (`plainAnswers`) are relayed with the body that they have (`relay_framed`). -/
namespace CampusAuth.Network
open Lib Lib.Http

/-! ## Words -/

theorem wordsFrom_graphic {g : Bytes} (hg : ∀ b ∈ g, graphic b = true) (word s : Bytes) :
    wordsFrom 0 word (g ++ s) = wordsFrom 0 (word ++ g) s := by
  induction g generalizing word with
  | nil => rw [List.nil_append, List.append_nil]
  | cons b g ih =>
    rw [List.cons_append, wordsFrom, spaceAt_graphic spacing_whiteSpace (hg b List.mem_cons_self)]
    show wordsFrom 0 (word ++ [b]) (g ++ s) = _
    rw [ih (fun c hc => hg c (List.mem_cons_of_mem _ hc)), List.append_assoc]
    rfl

/-- One byte of white space ends the word. -/
theorem wordsFrom_space {b : UInt8} {s word : Bytes} (hword : word ≠ [])
    (hb : spaceAt whiteSpace (b :: s) = some [b]) :
    wordsFrom 0 word (b :: s) = word :: wordsFrom 0 [] s := by
  rw [wordsFrom, hb]
  simp only [hword, if_false, List.length_singleton]
  rfl

/-- No word holds a byte that is white space by itself. -/
theorem not_mem_word {b : UInt8} (hb : [b] ∈ whiteSpace) {skip : Nat} {word s : Bytes}
    (hword : b ∉ word) : ∀ w ∈ wordsFrom skip word s, b ∉ w := by
  induction s generalizing skip word with
  | nil =>
    intro w hw
    rw [wordsFrom] at hw
    split at hw
    · cases hw
    · rw [List.mem_singleton.mp hw]
      exact hword
  | cons c s ih =>
    cases skip with
    | succ skip => exact ih hword
    | zero =>
      rw [wordsFrom]
      cases hspace : spaceAt whiteSpace (c :: s) with
      | some space =>
        intro w hw
        rcases List.mem_append.mp hw with hw | hw
        · split at hw
          · cases hw
          · rw [List.mem_singleton.mp hw]
            exact hword
        · exact ih (by simp) w hw
      | none =>
        refine ih fun hmem => ?_
        rcases List.mem_append.mp hmem with hmem | hmem
        · exact hword hmem
        · obtain rfl := List.mem_singleton.mp hmem
          have hnot := List.find?_eq_none.mp hspace [b] hb
          exact hnot (List.isPrefixOf_iff_prefix.mpr (List.prefix_append [b] s))

/-! ## The status line -/

theorem statusCode_spec {head : Bytes} {n : Nat} (h : statusCode head = some n) :
    ∃ v x y z e s, head = ascii "HTTP/1." ++ v :: 32 :: x :: y :: z :: e :: s ∧
      (∀ d ∈ [v, x, y, z], isDigit d = true) ∧ x ≠ 48 ∧ (e = 32 ∨ e = 13) ∧
      n = decimal [x, y, z] := by
  unfold statusCode at h
  split at h
  next v x y z e s hdrop =>
    split at h
    next hcond =>
      cases h
      simp only [Bool.and_eq_true] at hcond
      obtain ⟨⟨⟨hpre, hdigits⟩, hx⟩, he⟩ := hcond
      obtain ⟨t, rfl⟩ := List.isPrefixOf_iff_prefix.mp hpre
      have ht : t = v :: 32 :: x :: y :: z :: e :: s := hdrop
      exact ⟨v, x, y, z, e, s, by rw [ht], List.all_eq_true.mp hdigits, by simpa using hx,
        by simpa using he, rfl⟩
    · cases h
  · cases h

theorem decimal_three {x y z : UInt8} (hx : isDigit x = true) (hy : isDigit y = true)
    (hz : isDigit z = true) (h : x ≠ 48) :
    100 ≤ decimal [x, y, z] ∧ decimal [x, y, z] < 1000 := by
  simp only [isDigit, Bool.and_eq_true, decide_eq_true_eq, UInt8.le_iff_toNat_le,
    UInt8.reduceToNat] at hx hy hz
  have hne : x.toNat ≠ 48 := fun heq => h (UInt8.toNat_inj.mp heq)
  simp only [decimal, List.foldl_cons, List.foldl_nil]
  omega

/-- The second word of a line that goes on with white space, if at all. -/
theorem second_word {first second l : Bytes} (hfirst : first ≠ []) (hsecond : second ≠ [])
    (hg : ∀ b ∈ first, graphic b = true) (hg' : ∀ b ∈ second, graphic b = true)
    (hl : l = [] ∨ ∃ e t, l = e :: t ∧ (e = 32 ∨ e = 13)) :
    (splitWhitespace (first ++ 32 :: (second ++ l)))[1]? = some second := by
  rw [splitWhitespace, wordsFrom_graphic hg, wordsFrom_space (by simpa using hfirst) rfl,
    wordsFrom_graphic hg']
  rcases hl with rfl | ⟨e, t, rfl, rfl | rfl⟩
  · rw [wordsFrom, if_neg (by simpa using hsecond)]
    rfl
  · rw [wordsFrom_space (by simpa using hsecond) rfl]
    rfl
  · rw [wordsFrom_space (by simpa using hsecond) rfl]
    rfl

/-- A number in its place in the status line is what the source reads. -/
theorem statusOf_of_statusCode {response : Bytes} {n : Nat} (h : statusCode response = some n) :
    statusOf response = some n ∧ 100 ≤ n := by
  obtain ⟨v, x, y, z, e, s, rfl, hdigits, hx, he, rfl⟩ := statusCode_spec h
  have hxyz : ∀ d ∈ [x, y, z], isDigit d = true := fun d hd => hdigits d (List.mem_cons_of_mem v hd)
  have hrange := decimal_three (hxyz x (by simp)) (hxyz y (by simp)) (hxyz z (by simp)) hx
  refine ⟨?_, hrange.1⟩
  have hv : graphic v = true := graphic_of_isDigit (hdigits v List.mem_cons_self)
  have hfirst : ∀ b ∈ ascii "HTTP/1." ++ [v], graphic b = true := by
    intro b hb
    rcases List.mem_append.mp hb with hb | hb
    · have hall : (ascii "HTTP/1.").all graphic = true := by decide
      exact List.all_eq_true.mp hall b hb
    · rw [List.mem_singleton.mp hb]
      exact hv
  have hsecond : ∀ b ∈ [x, y, z], graphic b = true := fun b hb => graphic_of_isDigit (hxyz b hb)
  have hno13 : 13 ∉ (ascii "HTTP/1." ++ [v]) ++ 32 :: [x, y, z] := by
    intro hmem
    rcases List.mem_append.mp hmem with hmem | hmem
    · exact absurd (hfirst 13 hmem) (by decide)
    · rcases List.mem_cons.mp hmem with heq | hmem
      · cases heq
      · exact absurd (hsecond 13 hmem) (by decide)
  have hline : (crlfLines (ascii "HTTP/1." ++ v :: 32 :: x :: y :: z :: e :: s)).headD [] =
      (ascii "HTTP/1." ++ [v]) ++ 32 :: ([x, y, z] ++ (crlfLines (e :: s)).headD []) := by
    have hsplit : ascii "HTTP/1." ++ v :: 32 :: x :: y :: z :: e :: s =
        ((ascii "HTTP/1." ++ [v]) ++ 32 :: [x, y, z]) ++ e :: s := rfl
    rw [hsplit, crlfLines_front hno13]
    rfl
  have hend : (crlfLines (e :: s)).headD [] = [] ∨
      ∃ c t, (crlfLines (e :: s)).headD [] = c :: t ∧ (c = 32 ∨ c = 13) := by
    rcases crlfLines_first e s with hnil | ⟨l, hl⟩
    · exact .inl hnil
    · exact .inr ⟨e, l, hl, he⟩
  have hword := second_word (List.append_ne_nil_of_right_ne_nil _ (List.cons_ne_nil v []))
    (List.cons_ne_nil x [y, z]) hfirst hsecond hend
  have hsmall : decimal [x, y, z] < 65536 := by omega
  rw [statusOf, hline, hword, Option.bind_some,
    fromStrRadix_decimal (List.cons_ne_nil x _) (List.all_eq_true.mpr hxyz), Option.filter_some,
    if_pos (decide_eq_true hsmall)]

theorem relayFrom_enough {isHead close : Bool} {n m : Nat} {unread : Bytes}
    (hn : unread.length < n) (hm : unread.length < m) :
    relayFrom isHead close n unread = relayFrom isHead close m unread := by
  induction n generalizing m unread with
  | zero => omega
  | succ n ih =>
    obtain ⟨m, rfl⟩ := Nat.exists_eq_succ_of_ne_zero (Nat.ne_of_gt (Nat.zero_lt_of_lt hm))
    rw [relayFrom, relayFrom]
    cases hread : readHttpHead unread with
    | none => rfl
    | some rr =>
      obtain ⟨response, rest⟩ := rr
      have hshort := readUntil_shorter (by decide) hread
      have hmore : relayFrom isHead close n rest = relayFrom isHead close m rest :=
        ih (by omega) (by omega)
      simp only [hmore]
/-! ## Heads -/

/-- The fields that the source reads are those of the head. -/
theorem fieldsOf_response {response : Bytes} (h : (fieldLines response).all plain = true) :
    fieldsOf response = some (stripped (responseHeaders response)) := by
  rw [fieldsOf, if_pos h, fieldLines, responseHeaders, stripped, List.map_filterMap,
    List.filterMap_filter]
  refine congrArg some (List.filterMap_congr fun line _ => ?_)
  cases line with
  | nil => rfl
  | cons b line => rfl

/-- The heads that the relay reads are plain, and so is the body behind the last one. -/
def plainAnswers (isHead : Bool) : Nat → Bytes → Bool
  | 0, _ => true
  | fuel + 1, unread =>
    match readHttpHead unread with
    | none => true
    | some (response, rest) =>
      match statusOf response, bodyLength (responseHeaders response) with
      | some status, some _ =>
        (fieldLines response).all plain && (statusCode response).isSome &&
          if status = 101 then true
          else if status < 200 then plainAnswers isHead fuel rest
          else
            bodiless isHead status ||
              (plainBody (responseHeaders response) rest && finalCoding (responseHeaders response))
      | _, _ => true

/-- Interim responses and then one more, each as long as its head says. -/
structure Relayed.Framed (isHead : Bool) (r : Relayed) : Prop where
  interim : ∀ i ∈ r.interim, Message (responseExtent isHead) false i [] ∧
    ∃ status, statusCode i = some status ∧ status < 200 ∧ status ≠ 101
  whole : r.how = .next → Message (responseExtent isHead) false r.response r.answer
  closing : r.how = .closed → Message (responseExtent isHead) true r.response r.answer
  part : r.how = .failed → ∀ p, p <+: r.answer →
    ¬Message (responseExtent isHead) true r.response p
  last : r.how = .next ∨ r.how = .closed →
    ∃ status, statusCode r.response = some status ∧ 200 ≤ status
  switched : r.how = .tunnel → statusCode r.response = some 101

/-- What was relayed is a start of what arrived, and all of it up to the next response. -/
def Relayed.Taken (unread : Bytes) (r : Relayed) : Prop :=
  ∃ rest, unread = r.interim.flatten ++ (r.response ++ (r.answer ++ rest)) ∧
    (r.how = .next → r.unread = rest)

theorem noResponse_framed (isHead : Bool) (unread : Bytes) :
    (noResponse unread).Framed isHead where
  interim i hi := by cases hi
  whole h := by cases h
  closing h := by cases h
  part _ p _ hmessage := by
    have hlen : 4 ≤ 0 := hmessage.blank.length_le
    cases hlen
  last h := by rcases h with h | h <;> cases h
  switched h := by cases h

theorem noResponse_taken (unread rest : Bytes) : (noResponse rest).Taken unread :=
  ⟨unread, rfl, fun h => by cases h⟩

theorem message_iff {extent : Bytes → Fields → Option Extent} {head : Bytes} {fields : Fields}
    (hblank : EndsFirst blank head) (hfields : fieldsOf head = some fields) (closed : Bool)
    (body : Bytes) : Message extent closed head body ↔
      ∃ e, extent head fields = some e ∧ e.Fits closed body := by
  constructor
  · rintro ⟨-, fields', e, hfields', he, hfits⟩
    cases hfields.symm.trans hfields'
    exact ⟨e, he, hfits⟩
  · rintro ⟨e, he, hfits⟩
    exact ⟨hblank, fields, e, hfields, he, hfits⟩

theorem Copied.Delimits.congr {P Q : Bool → Bytes → Prop} {input : Bytes} {c : Copied}
    (h : c.Delimits P input) (hPQ : ∀ closed p, P closed p ↔ Q closed p) : c.Delimits Q input where
  split := h.split
  whole hret := (hPQ _ _).mp (h.whole hret)
  part hret p hp hq := h.part hret p hp ((hPQ _ _).mpr hq)

theorem answerBody_delimits {isHead : Bool} {response rest : Bytes} {status : Nat}
    (hblank : EndsFirst blank response) (hlines : (fieldLines response).all plain = true)
    (hstatus : statusCode response = some status) (hlast : 200 ≤ status)
    (hlen : (bodyLength (responseHeaders response)).isSome = true)
    (hplain : (bodiless isHead status ||
      (plainBody (responseHeaders response) rest &&
        finalCoding (responseHeaders response))) = true) :
    (answerBody isHead response status rest).Delimits
      (fun closed p => Message (responseExtent isHead) closed response p) rest := by
  have hfields := fieldsOf_response hlines
  have hextent : responseExtent isHead response (stripped (responseHeaders response)) =
      if bodiless isHead status then some .empty
      else bodyExtent true (stripped (responseHeaders response)) := by
    have hnot : decide (status < 200) = false := decide_eq_false (Nat.not_lt.mpr hlast)
    rw [responseExtent, hstatus, Option.bind_some, hnot, Bool.or_false]
    rfl
  rw [answerBody]
  split
  next hbody =>
    rw [if_pos hbody] at hextent
    exact ⟨⟨rest, rfl, fun _ => rfl⟩,
      fun _ => (message_iff hblank hfields _ _).mpr ⟨.empty, hextent, rfl⟩,
      fun hret => Bool.noConfusion hret⟩
  next hbody =>
    rw [if_neg hbody] at hextent
    rw [Bool.or_eq_true, Bool.and_eq_true] at hplain
    obtain ⟨hplain, hfinal⟩ := hplain.resolve_left hbody
    refine (copyMessageBody_delimits true hplain (fun _ => hfinal) hlen).congr fun closed p => ?_
    rw [message_iff hblank hfields, hextent]

/-- How the last response ended, by what was copied of its body. -/
theorem relayFinal_how (isHead close : Bool) (response rest : Bytes) (status : Nat) :
    let c := answerBody isHead response status rest
    let how := (relayFinal isHead close response status rest).how
    how = .failed ∧ c.returned = false ∨ how = .closed ∧ c.returned = true ∨
      how = .next ∧ c.returned = true ∧ c.framed = true := by
  dsimp only [relayFinal]
  generalize answerBody isHead response status rest = c
  cases hret : c.returned with
  | false => exact .inl ⟨rfl, rfl⟩
  | true =>
    rw [if_neg (by simp)]
    split
    · exact .inr (.inl ⟨rfl, rfl⟩)
    next hopen =>
      refine .inr (.inr ⟨rfl, rfl, ?_⟩)
      by_contra hframed
      exact hopen (by simp [hframed])

theorem relayFinal_framed {isHead close : Bool} {response rest : Bytes} {status : Nat}
    (hstatus : statusCode response = some status) (hlast : 200 ≤ status)
    (h : (answerBody isHead response status rest).Delimits
      (fun closed p => Message (responseExtent isHead) closed response p) rest) :
    (relayFinal isHead close response status rest).Framed isHead := by
  have hcases := relayFinal_how isHead close response rest status
  dsimp only at hcases
  rcases hcases with ⟨hhow, hret⟩ | ⟨hhow, hret⟩ | ⟨hhow, hret, hframed⟩
  · refine ⟨fun i hi => (List.not_mem_nil hi).elim, ?_, ?_, fun _ => h.part hret, ?_, ?_⟩ <;>
      rw [hhow] <;> simp
  · refine ⟨fun i hi => (List.not_mem_nil hi).elim, ?_, fun _ => (h.whole hret).mono, ?_,
      fun _ => ⟨status, hstatus, hlast⟩, ?_⟩ <;> rw [hhow] <;> simp
  · have hwhole := h.whole hret
    rw [hframed] at hwhole
    refine ⟨fun i hi => (List.not_mem_nil hi).elim, fun _ => hwhole, ?_, ?_,
      fun _ => ⟨status, hstatus, hlast⟩, ?_⟩ <;> rw [hhow] <;> simp

theorem relayFinal_taken {isHead close : Bool} {response rest : Bytes} {status : Nat}
    {P : Bool → Bytes → Prop} (h : (answerBody isHead response status rest).Delimits P rest) :
    (relayFinal isHead close response status rest).Taken (response ++ rest) := by
  obtain ⟨left, hsplit, hleft⟩ := h.split
  refine ⟨left, congrArg (response ++ ·) hsplit, fun hnext => ?_⟩
  have hcases := relayFinal_how isHead close response rest status
  dsimp only at hcases
  rcases hcases with ⟨hhow, -⟩ | ⟨hhow, -⟩ | ⟨-, hret, -⟩
  · rw [hhow] at hnext
    cases hnext
  · rw [hhow] at hnext
    cases hnext
  · exact hleft hret

theorem interim_framed {isHead : Bool} {response : Bytes} {status : Nat} {more : Relayed}
    (hblank : EndsFirst blank response) (hlines : (fieldLines response).all plain = true)
    (hstatus : statusCode response = some status) (hinterim : status < 200) (h101 : status ≠ 101)
    (h : more.Framed isHead) :
    Relayed.Framed isHead { more with interim := response :: more.interim } where
  interim := by
    have hextent : responseExtent isHead response (stripped (responseHeaders response)) =
        some .empty := by
      rw [responseExtent, hstatus, Option.bind_some, decide_eq_true hinterim]
      simp
    refine List.forall_mem_cons.mpr ⟨⟨?_, status, hstatus, hinterim, h101⟩, h.interim⟩
    exact (message_iff hblank (fieldsOf_response hlines) _ _).mpr ⟨.empty, hextent, rfl⟩
  whole := h.whole
  closing := h.closing
  part := h.part
  last := h.last
  switched := h.switched

theorem interim_taken {response rest : Bytes} {more : Relayed} (h : more.Taken rest) :
    Relayed.Taken (response ++ rest) { more with interim := response :: more.interim } := by
  obtain ⟨left, hsplit, hleft⟩ := h
  refine ⟨left, ?_, hleft⟩
  rw [List.flatten_cons, List.append_assoc, ← hsplit]

theorem tunnel_framed {isHead : Bool} {response : Bytes} (h : statusCode response = some 101)
    (rest : Bytes) :
    Relayed.Framed isHead
      { interim := [], response, answer := [], unread := rest, how := .tunnel } where
  interim i hi := by cases hi
  whole h := by cases h
  closing h := by cases h
  part h := by cases h
  last h := by rcases h with h | h <;> cases h
  switched _ := h

theorem relayFrom_framed {isHead : Bool} (close : Bool) {fuel : Nat} {unread : Bytes}
    (h : plainAnswers isHead fuel unread = true) :
    (relayFrom isHead close fuel unread).Framed isHead ∧
      (relayFrom isHead close fuel unread).Taken unread := by
  induction fuel generalizing unread with
  | zero => exact ⟨noResponse_framed isHead unread, noResponse_taken unread unread⟩
  | succ fuel ih =>
    rw [relayFrom]
    rw [plainAnswers] at h
    cases hread : readHttpHead unread with
    | none => exact ⟨noResponse_framed isHead [], noResponse_taken unread []⟩
    | some rr =>
      obtain ⟨response, rest⟩ := rr
      obtain ⟨rfl, hblank⟩ := readHttpHead_spec hread
      rw [hread] at h
      dsimp only at h ⊢
      have hnone : (noResponse rest).Framed isHead ∧ (noResponse rest).Taken (response ++ rest) :=
        ⟨noResponse_framed isHead rest, noResponse_taken _ rest⟩
      cases hstatus : statusOf response with
      | none => exact hnone
      | some status =>
        cases hlen : bodyLength (responseHeaders response) with
        | none => exact hnone
        | some len =>
          rw [hstatus, hlen] at h
          simp only [Bool.and_eq_true] at h ⊢
          obtain ⟨⟨hlines, hcode⟩, hrest⟩ := h
          obtain ⟨n, hn⟩ := Option.isSome_iff_exists.mp hcode
          cases hstatus.symm.trans (statusOf_of_statusCode hn).1
          split at hrest
          next h101 =>
            rw [if_pos h101]
            exact ⟨tunnel_framed (h101 ▸ hn) rest, rest, rfl, fun hnext => by cases hnext⟩
          next h101 =>
            rw [if_neg h101]
            split at hrest
            next hinterim =>
              rw [if_pos hinterim]
              obtain ⟨hframed, htaken⟩ := ih hrest
              exact ⟨interim_framed hblank hlines hn hinterim h101 hframed, interim_taken htaken⟩
            next hlast =>
              rw [if_neg hlast]
              have hbody := answerBody_delimits hblank hlines hn (Nat.not_lt.mp hlast)
                (by rw [hlen]; rfl) hrest
              exact ⟨relayFinal_framed hn (Nat.not_lt.mp hlast) hbody, relayFinal_taken hbody⟩

end CampusAuth.Network
