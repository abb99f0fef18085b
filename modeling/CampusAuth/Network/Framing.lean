import CampusAuth.Network.Responses

/- Where the forward proxy ends its messages (`network/egress.rs`, `serve_proxy`).

   In a run over heads that say what the source reads in them (`Plain`) each message goes as far as
   the header block it was forwarded with says, so that on either side nothing of it is taken for the
   next one (`framing_kept`). Of other heads the source forwards every line and reads what it finds:
   a length with a blank before the colon is none to it, and the body becomes the next request
   (`length_overlooked`). -/
namespace CampusAuth.Network
open Lib Lib.Http

/-! ## The forwarded head -/

/-- The crate writes no control character and no space into a path or a query. -/
def Env.Serialized (env : Env) : Prop :=
  ∀ target url, env.parseUrl target = some url →
    (∀ b ∈ url.path, 33 ≤ b) ∧ ∀ q, url.query = some q → ∀ b ∈ q, 33 ≤ b

/-- What is known of a request that `ask` lets through. -/
structure Request.Asked (env : Env) (head : Bytes) (r : Request) : Prop where
  headers : (fieldLines head).mapM (splitByte 58) = some r.headers
  length : (bodyLength r.headers).isSome = true
  method : ∃ line, r.method ∈ splitWhitespace line
  url : ∃ target, env.parseUrl target = some r.url

theorem ask_request {env : Env} {head : Bytes} {r : Request} (h : ask env head = .request r) :
    r.Asked env head := by
  unfold ask at h
  split at h
  · cases h
  · split at h
    · cases h
    next headers hheaders =>
      split at h
      · cases h
      · split at h
        next len method target version hlen hwords =>
          split at h
          · unfold askUrl at h
            dsimp only at h
            split at h
            · cases h
            next url hurl =>
              split at h
              · cases h
              · split at h
                · cases h
                · cases h
                  exact ⟨hheaders, by rw [hlen]; rfl, ⟨_, by rw [hwords]; exact List.mem_cons_self⟩,
                    _, hurl⟩
          · cases h
        · cases h

/-- The line of a field. -/
def fieldLine (h : Bytes × Bytes) : Bytes := h.1 ++ 58 :: h.2

theorem splitByte_some {c : UInt8} {line : Bytes} {h : Bytes × Bytes}
    (hsplit : splitByte c line = some h) : line = h.1 ++ c :: h.2 ∧ c ∉ h.1 := by
  unfold splitByte at hsplit
  split at hsplit
  · cases hsplit
  next d rest hdrop =>
    cases hsplit
    have hd : d = c := by
      have hhead := List.head?_dropWhile_not (· != c) line
      rw [hdrop] at hhead
      simpa using hhead
    have hnot : c ∉ line.takeWhile (· != c) := by
      intro hmem
      have hall := List.all_eq_true.mp List.all_takeWhile c hmem
      simp at hall
    refine ⟨?_, hnot⟩
    conv_lhs => rw [← List.takeWhile_append_dropWhile (p := (· != c)) (l := line), hdrop, hd]

theorem splitByte_line {c : UInt8} {a b : Bytes} (h : c ∉ a) :
    splitByte c (a ++ c :: b) = some (a, b) := by
  have hall : ∀ x ∈ a, (x != c) = true := by
    intro x hx
    simp only [bne_iff_ne, ne_eq]
    exact fun heq => h (heq ▸ hx)
  rw [splitByte, List.dropWhile_append_of_pos hall, List.takeWhile_append_of_pos hall]
  simp

theorem fields_of_mapM {lines : List Bytes} {headers : Fields}
    (h : lines.mapM (splitByte 58) = some headers) :
    lines = headers.map fieldLine ∧ ∀ f ∈ headers, 58 ∉ f.1 := by
  induction lines generalizing headers with
  | nil =>
    cases h
    exact ⟨rfl, fun f hf => (List.not_mem_nil hf).elim⟩
  | cons line lines ih =>
    simp only [List.mapM_cons, Option.bind_eq_bind, Option.bind_eq_some_iff, Option.pure_def,
      Option.some.injEq] at h
    obtain ⟨f, hf, rest, hrest, rfl⟩ := h
    obtain ⟨hline, hname⟩ := splitByte_some hf
    obtain ⟨hlines, hnames⟩ := ih hrest
    exact ⟨by rw [hlines, hline]; rfl, List.forall_mem_cons.mpr ⟨hname, hnames⟩⟩

theorem plain_line {line : Bytes} (h : plain line = true) : 13 ∉ line ∧ 10 ∉ line := by
  simp only [plain, Bool.and_eq_true] at h
  obtain ⟨⟨⟨h13, h10⟩, -⟩, -⟩ := h
  simp only [Bool.not_eq_true', List.contains_eq_mem, decide_eq_false_iff_not] at h13 h10
  exact ⟨h13, h10⟩

def Request.kept (r : Request) : Fields := r.headers.filter (!dropped ·)

def Request.requestLine (r : Request) : Bytes := r.method ++ 32 :: (r.path ++ ascii " HTTP/1.1")

theorem forwarded_eq (r : Request) :
    r.forwarded = headOf (r.requestLine :: (r.kept.map fieldLine ++ [r.connectionLine])) := by
  have hlines : (r.kept.map fieldLine).flatMap (· ++ crlf) =
      r.kept.flatMap fun h => h.1 ++ [58] ++ h.2 ++ crlf := by
    rw [List.flatMap_map]
    exact List.flatMap_congr fun h _ => by simp [fieldLine]
  have hblank : blank = crlf ++ crlf := rfl
  have hspace : ascii " " = [32] := rfl
  rw [headOf_cons, headOf, List.flatMap_append, hlines, List.flatMap_singleton, Request.forwarded,
    Request.requestLine, Request.kept, hblank, hspace]
  simp only [List.append_assoc, List.cons_append, List.nil_append]

/-- The field of the connection, as the proxy writes it. -/
theorem connectionLine_cases (r : Request) : ∃ v, r.connectionLine = fieldLine (ascii "Connection", v) ∧
    plain r.connectionLine = true := by
  unfold Request.connectionLine
  split
  · exact ⟨ascii " Upgrade", by decide, by decide⟩
  · split
    · exact ⟨ascii " close", by decide, by decide⟩
    · exact ⟨ascii " keep-alive", by decide, by decide⟩

theorem no_control {r : Request} {env : Env} {head : Bytes} (hurl : env.Serialized)
    (h : r.Asked env head) : 13 ∉ r.requestLine := by
  obtain ⟨line, hmethod⟩ := h.method
  obtain ⟨target, htarget⟩ := h.url
  obtain ⟨hpath, hquery⟩ := hurl target r.url htarget
  have hpath' : 13 ∉ r.path := by
    intro hmem
    unfold Request.path at hmem
    split at hmem
    next q hq =>
      rcases List.mem_append.mp hmem with hmem | hmem
      · rcases List.mem_append.mp hmem with hmem | hmem
        · exact absurd (hpath 13 hmem) (by decide)
        · exact absurd hmem (by decide)
      · exact absurd (hquery q hq 13 hmem) (by decide)
    · exact absurd (hpath 13 hmem) (by decide)
  intro hmem
  rcases List.mem_append.mp hmem with hmem | hmem
  · exact not_mem_word (by decide) (List.not_mem_nil) r.method hmethod hmem
  · rcases List.mem_cons.mp hmem with heq | hmem
    · cases heq
    · rcases List.mem_append.mp hmem with hmem | hmem
      · exact hpath' hmem
      · exact absurd hmem (by decide)

theorem sameName_of_both {a b c : Bytes} (hb : sameName a b = true) (hc : sameName a c = true) :
    sameName b c = true := by
  simp only [sameName, beq_iff_eq] at hb hc ⊢
  exact hb.symm.trans hc

/-- Fields about the length are not dropped, and the one for the proxy is. -/
theorem kept_values (r : Request) (v : Bytes) (name : String)
    (hkeep : ["proxy-authorization", "proxy-connection", "connection", "expect"].all
      (fun n => !sameName (ascii name) (ascii n)) = true) :
    (stripped (r.kept ++ [(ascii "Connection", v)])).values name =
      (stripped r.headers).values name := by
  have hname : ∀ n ∈ ["proxy-authorization", "proxy-connection", "connection", "expect"],
      sameName (ascii name) (ascii n) = false := by simpa using hkeep
  have hconnection : sameName (ascii "Connection") (ascii name) = false := by
    by_contra hsame
    have hboth := sameName_of_both (Bool.eq_true_of_not_eq_false hsame)
      (show sameName (ascii "Connection") (ascii "connection") = true by decide)
    rw [hname "connection" (by simp)] at hboth
    cases hboth
  have hfilter : r.kept.filter (fun h => sameName h.1 (ascii name)) =
      r.headers.filter fun h => sameName h.1 (ascii name) := by
    rw [Request.kept, List.filter_filter]
    refine List.filter_congr fun h _ => ?_
    cases hsame : sameName h.1 (ascii name) with
    | false => rfl
    | true =>
      have hdropped : dropped h = false := by
        unfold dropped
        refine List.any_eq_false.mpr fun n hn hboth => ?_
        exact Bool.false_ne_true ((hname n hn).symm.trans (sameName_of_both hsame hboth))
      rw [hdropped]
      rfl
  rw [values_stripped, values_stripped, List.filter_append, hfilter]
  simp [hconnection]

/-- No field with a name that is dropped is left. -/
theorem dropped_values {r : Request} {v : Bytes} :
    (stripped (r.kept ++ [(ascii "Connection", v)])).values "proxy-authorization" = [] := by
  have hnone : r.kept.filter (fun h => sameName h.1 (ascii "proxy-authorization")) = [] := by
    rw [Request.kept, List.filter_filter, List.filter_eq_nil_iff]
    intro h _ hboth
    obtain ⟨hsame, hkept⟩ := Bool.and_eq_true_iff.mp hboth
    have hdropped : dropped h = true := List.any_eq_true.mpr ⟨_, List.mem_cons_self, hsame⟩
    rw [hdropped] at hkept
    cases hkept
  rw [values_stripped, List.filter_append, hnone]
  rfl

/-- The block that is forwarded ends at its end, with the fields that were kept. -/
theorem forwarded_spec {env : Env} {head : Bytes} {r : Request} (hurl : env.Serialized)
    (h : r.Asked env head) (hplain : (fieldLines head).all plain = true) :
    EndsFirst blank r.forwarded ∧ ∃ v, fieldsOf r.forwarded =
      some (stripped (r.kept ++ [(ascii "Connection", v)])) := by
  obtain ⟨hlines, hnames⟩ := fields_of_mapM h.headers
  obtain ⟨v, hconn, hconn'⟩ := connectionLine_cases r
  have hplain' : ∀ line ∈ r.kept.map fieldLine ++ [r.connectionLine], plain line = true := by
    intro line hline
    rcases List.mem_append.mp hline with hline | hline
    · obtain ⟨f, hf, rfl⟩ := List.mem_map.mp hline
      have hmem : fieldLine f ∈ fieldLines head :=
        hlines ▸ List.mem_map_of_mem (List.mem_of_mem_filter hf)
      exact List.all_eq_true.mp hplain _ hmem
    · rw [List.mem_singleton.mp hline]
      exact hconn'
  have hsome : ∀ line ∈ r.kept.map fieldLine ++ [r.connectionLine], line ≠ [] ∧ 13 ∉ line := by
    intro line hline
    refine ⟨fun hnil => ?_, (plain_line (hplain' line hline)).1⟩
    rcases List.mem_append.mp hline with hline | hline
    · obtain ⟨f, -, rfl⟩ := List.mem_map.mp hline
      exact List.append_ne_nil_of_right_ne_nil _ (List.cons_ne_nil _ _) hnil
    · rw [List.mem_singleton.mp hline, hconn] at hnil
      exact List.append_ne_nil_of_right_ne_nil _ (List.cons_ne_nil _ _) hnil
  have hfirst := no_control hurl h
  rw [forwarded_eq]
  constructor
  · refine endsFirst_headOf (List.cons_ne_nil _ _) (List.forall_mem_cons.mpr ⟨⟨?_, hfirst⟩, hsome⟩)
    exact List.append_ne_nil_of_right_ne_nil _ (List.cons_ne_nil _ _)
  · refine ⟨v, ?_⟩
    have hfields : (r.kept.map fieldLine ++ [r.connectionLine]) =
        (r.kept ++ [(ascii "Connection", v)]).map fieldLine := by
      rw [hconn, List.map_append, List.map_singleton]
    have hname : ∀ f ∈ r.kept ++ [(ascii "Connection", v)], 58 ∉ f.1 := by
      intro f hf
      rcases List.mem_append.mp hf with hf | hf
      · exact hnames f (List.mem_of_mem_filter hf)
      · rw [List.mem_singleton.mp hf]
        show 58 ∉ ascii "Connection"
        decide
    rw [fieldsOf, fieldLines_headOf hfirst hsome, if_pos (List.all_eq_true.mpr hplain'), hfields,
      List.filterMap_map, stripped, ← List.filterMap_eq_map]
    refine congrArg some (List.filterMap_congr fun f hf => ?_)
    rw [Function.comp_apply, fieldLine, splitByte_line (hname f hf)]
    rfl

theorem headRequest_forwarded {env : Env} {head : Bytes} {r : Request} (h : r.Asked env head) :
    headRequest r.forwarded = (r.method == ascii "HEAD") := by
  obtain ⟨line, hmethod⟩ := h.method
  have hspace : 32 ∉ r.method := not_mem_word (by decide) (List.not_mem_nil) r.method hmethod
  obtain ⟨t, ht⟩ : ∃ t, r.forwarded = r.method ++ 32 :: t := by
    rw [forwarded_eq, headOf_cons, Request.requestLine, List.append_assoc, List.cons_append]
    exact ⟨_, rfl⟩
  rw [headRequest, ht]
  by_cases hhead : r.method = ascii "HEAD"
  · rw [hhead]
    rfl
  · have hnot : ¬ascii "HEAD " <+: r.method ++ 32 :: t := by
      rintro ⟨u, hu⟩
      have hsplit := congrArg (splitByte 32) hu
      rw [splitByte_line hspace, show ascii "HEAD " ++ u = ascii "HEAD" ++ 32 :: u from rfl,
        splitByte_line (by decide)] at hsplit
      exact hhead (Prod.mk.inj (Option.some.inj hsplit)).1.symm
    have hfalse : (r.method == ascii "HEAD") = false := by simpa using hhead
    rw [hfalse]
    exact Bool.eq_false_iff.mpr fun hpre => hnot (List.isPrefixOf_iff_prefix.mp hpre)

/-! ## An exchange -/

/-- The request goes as far as its header block says, or breaks off before; so do the responses. -/
structure Exchange.Framed (x : Exchange) : Prop where
  head : EndsFirst blank x.head
  whole : x.accepted = true → Message requestExtent false x.forwarded x.body
  part : x.accepted = false → ∀ p, p <+: x.body → ¬Message requestExtent false x.forwarded p
  silent : x.accepted = false → x.relayed = noResponse x.relayed.unread
  answers : x.relayed.Framed (headRequest x.forwarded)
  secret : ∃ fields, fieldsOf x.forwarded = some fields ∧
    fields.values "proxy-authorization" = []

theorem forwarded_extent {r : Request} {v : Bytes} :
    requestExtent r.forwarded (stripped (r.kept ++ [(ascii "Connection", v)])) =
      bodyExtent false (stripped r.headers) := by
  have hcoding := kept_values r v "transfer-encoding" (by decide)
  have hlength := kept_values r v "content-length" (by decide)
  rw [requestExtent, bodyExtent, if_neg Bool.false_ne_true, extentOf, extentOf, hcoding,
    contentLength, contentLength, hlength]

theorem sent_delimits {env : Env} {head client : Bytes} {r : Request} (hurl : env.Serialized)
    (h : r.Asked env head) (hplain : (fieldLines head).all plain = true)
    (hbody : plainBody r.headers client = true) :
    (copyMessageBody client r.headers false).Delimits
      (fun closed p => Message requestExtent closed r.forwarded p) client := by
  obtain ⟨hblank, v, hfields⟩ := forwarded_spec hurl h hplain
  have hcopied := copyMessageBody_delimits false hbody
    (fun hresponse => Bool.noConfusion hresponse) h.length
  refine hcopied.congr fun closed p => ?_
  rw [message_iff hblank hfields, forwarded_extent]

theorem forward_framed {env : Env} {head client : Bytes} {r : Request} (up : Upstream)
    (hurl : env.Serialized) (h : r.Asked env head) (hhead : EndsFirst blank head)
    (hplain : (fieldLines head).all plain = true) (hbody : plainBody r.headers client = true)
    (hanswers : plainAnswers (r.method == ascii "HEAD") (up.unread.length + 1) up.unread = true) :
    (forward r head client up).1.Framed where
  head := hhead
  whole hret := ((sent_delimits hurl h hplain hbody).whole hret).request_ends
  part hret p hp hmessage := (sent_delimits hurl h hplain hbody).part hret p hp hmessage.mono
  silent hret := by
    have hrelayed : (forward r head client up).1.relayed = noResponse up.unread := by
      unfold forward
      dsimp only
      rw [if_neg (by simpa [forward] using hret)]
    rw [hrelayed]
    rfl
  answers := by
    show Relayed.Framed (headRequest r.forwarded) _
    rw [headRequest_forwarded h]
    unfold forward
    dsimp only
    split
    · exact (relayFrom_framed r.close hanswers).1
    · exact noResponse_framed _ _
  secret := by
    obtain ⟨-, v, hfields⟩ := forwarded_spec hurl h hplain
    exact ⟨_, hfields, dropped_values⟩

/-! ## A run -/

/-- The heads that the turn reads say what the source reads in them, and so do the bodies behind. -/
def plainTurn (env : Env) (s : Proxy) (c : Option Bytes) : Bool :=
  match readHttpHead s.client with
  | none => true
  | some (head, client) =>
    match ask env head with
    | .request r =>
      match s.reach r c with
      | none => true
      | some (up, _) =>
        r.method == ascii "CONNECT" ||
          ((fieldLines head).all plain && plainBody r.headers client &&
            plainAnswers (r.method == ascii "HEAD") (up.unread.length + 1) up.unread)
    | _ => true

/-- What a turn took from the client. -/
def Turn.consumed : Turn → Bytes
  | .exchange x => x.head ++ x.body
  | _ => []

/-- What a turn gave to the client of the bytes on the `n`th connection. -/
def Turn.answered (n : Nat) : Turn → Bytes
  | .exchange x =>
    if x.number = n then
      x.relayed.interim.flatten ++ (x.relayed.response ++ x.relayed.answer)
    else []
  | _ => []

/-- The client's bytes are the requests one behind the other, those of each connection the responses
    to the requests that went over it, and each message has the length its header block says. -/
structure Framing (client : Bytes) (s : Proxy) (os : List Turn) : Prop where
  requests : ∃ rest, client = os.flatMap Turn.consumed ++ rest ∧
    (s.serving = true → s.client = rest)
  responses : ∀ n stream, s.streams[n]? = some stream →
    ∃ rest, stream = os.flatMap (Turn.answered n) ++ rest ∧
      (s.serving = true → ∀ up, s.connection = some up → up.number = n → up.unread = rest)
  exchanges : ∀ x, .exchange x ∈ os → x.Framed

structure Proxy.Traced (client : Bytes) (s : Proxy) (os : List Turn) : Prop where
  framing : Framing client s os
  numbers : ∀ x, .exchange x ∈ os → x.number < s.streams.length
  connected : ∀ up, s.connection = some up → up.number < s.streams.length

theorem reach_cases {s : Proxy} {r : Request} {c : Option Bytes} {up : Upstream}
    {streams : List Bytes} (h : s.reach r c = some (up, streams)) :
    s.connection = some up ∧ streams = s.streams ∨
      up.number = s.streams.length ∧ streams = s.streams ++ [up.unread] := by
  have hfresh : ∀ {o : Option (Upstream × List Bytes)},
      o = c.map (fun stream =>
        ({ key := r.key, number := s.streams.length, unread := stream }, s.streams ++ [stream])) →
      o = some (up, streams) →
      up.number = s.streams.length ∧ streams = s.streams ++ [up.unread] := by
    rintro o rfl ho
    obtain ⟨stream, -, heq⟩ := Option.map_eq_some_iff.mp ho
    cases heq
    exact ⟨rfl, rfl⟩
  unfold Proxy.reach at h
  dsimp only at h
  split at h
  next old hold =>
    split at h
    · cases h
      exact .inl ⟨hold, rfl⟩
    · exact .inr (hfresh rfl h)
  · exact .inr (hfresh rfl h)

/-- What an exchange leaves of the proxy. -/
structure Exchanged (env : Env) (s : Proxy) (c : Option Bytes) (s' : Proxy) (x : Exchange) :
    Prop where
  made : ∃ head client r up, readHttpHead s.client = some (head, client) ∧
    ask env head = .request r ∧ s.reach r c = some (up, s'.streams) ∧
    r.method ≠ ascii "CONNECT" ∧ forward r head client up = (x, s'.client) ∧
    s'.connection = some { up with unread := x.relayed.unread }
  serving : s'.serving = true → x.relayed.how = .next

/-- A turn ends the loop, or it is an exchange. -/
theorem serveTurn_cases (env : Env) (s : Proxy) (c : Option Bytes) :
    (∃ t streams, serveTurn env s c = ({ s with streams := streams, serving := false }, t) ∧
      (∀ x, t ≠ .exchange x) ∧
      (streams = s.streams ∨ ∃ stream, streams = s.streams ++ [stream])) ∨
    ∃ s' x, serveTurn env s c = (s', .exchange x) ∧ Exchanged env s c s' x := by
  have hstop : ∀ t : Turn, (∀ x, t ≠ .exchange x) →
      serveTurn env s c = ({ s with serving := false }, t) →
      ∃ t streams, serveTurn env s c = ({ s with streams := streams, serving := false }, t) ∧
        (∀ x, t ≠ .exchange x) ∧
        (streams = s.streams ∨ ∃ stream, streams = s.streams ++ [stream]) :=
    fun t ht heq => ⟨t, s.streams, heq, ht, .inl rfl⟩
  cases hread : readHttpHead s.client with
  | none => exact .inl (hstop (.refused []) (by simp) (by rw [serveTurn, hread]))
  | some hc =>
    obtain ⟨head, client⟩ := hc
    cases hask : ask env head with
    | failed =>
      exact .inl (hstop (.refused []) (by simp) (by rw [serveTurn, hread]; simp only [hask]))
    | unauthorized =>
      exact .inl (hstop (.refused unauthorizedReply) (by simp)
        (by rw [serveTurn, hread]; simp only [hask]))
    | request r =>
      cases hreach : s.reach r c with
      | none =>
        exact .inl (hstop (.refused badGatewayReply) (by simp)
          (by rw [serveTurn, hread]; simp only [hask, hreach]))
      | some us =>
        obtain ⟨up, streams⟩ := us
        by_cases hconnect : r.method = ascii "CONNECT"
        · refine .inl ⟨.connected up.number, streams, ?_, by simp, ?_⟩
          · rw [serveTurn, hread]
            simp only [hask, hreach, if_pos hconnect]
          · rcases reach_cases hreach with ⟨-, hsame⟩ | ⟨-, hnew⟩
            · exact .inl hsame
            · exact .inr ⟨up.unread, hnew⟩
        · have hturn : serveTurn env s c =
              ({ client := (forward r head client up).2
                 connection := some { up with unread := (forward r head client up).1.relayed.unread }
                 streams
                 serving := (forward r head client up).1.relayed.how = .next },
                .exchange (forward r head client up).1) := by
            rw [serveTurn, hread]
            simp only [hask, hreach, if_neg hconnect]
          exact .inr ⟨_, _, hturn, ⟨head, client, r, up, hread, hask, hreach, hconnect, rfl, rfl⟩,
            of_decide_eq_true⟩

/-- Nothing was answered from a connection not made yet. -/
theorem answered_fresh {os : List Turn} {n : Nat}
    (h : ∀ x, .exchange x ∈ os → x.number < n) : os.flatMap (Turn.answered n) = [] := by
  refine List.flatMap_eq_nil_iff.mpr fun t ht => ?_
  cases t with
  | exchange x => exact if_neg (Nat.ne_of_lt (h x ht))
  | refused reply => rfl
  | connected number => rfl

theorem Proxy.Traced.stopped {client : Bytes} {s : Proxy} {os : List Turn}
    (h : s.Traced client os) {t : Turn} {streams : List Bytes} (ht : ∀ x, t ≠ .exchange x)
    (hstreams : streams = s.streams ∨ ∃ stream, streams = s.streams ++ [stream]) :
    Proxy.Traced client { s with streams := streams, serving := false } (os ++ [t]) := by
  have hconsumed : t.consumed = [] := by
    cases t with
    | exchange x => exact absurd rfl (ht x)
    | refused reply => rfl
    | connected number => rfl
  have hanswered : ∀ n, t.answered n = [] := by
    intro n
    cases t with
    | exchange x => exact absurd rfl (ht x)
    | refused reply => rfl
    | connected number => rfl
  have hmem : ∀ x, .exchange x ∈ os ++ [t] → .exchange x ∈ os := by
    intro x hx
    rcases List.mem_append.mp hx with hx | hx
    · exact hx
    · exact absurd (List.mem_singleton.mp hx).symm (ht x)
  have hlonger : s.streams.length ≤ streams.length := by
    rcases hstreams with rfl | ⟨stream, rfl⟩
    · exact Nat.le_refl _
    · simp
  refine ⟨⟨?_, ?_, fun x hx => h.framing.exchanges x (hmem x hx)⟩,
    fun x hx => Nat.lt_of_lt_of_le (h.numbers x (hmem x hx)) hlonger,
    fun up hup => Nat.lt_of_lt_of_le (h.connected up hup) hlonger⟩
  · obtain ⟨rest, hsplit, -⟩ := h.framing.requests
    refine ⟨rest, ?_, fun hserving => Bool.noConfusion hserving⟩
    rw [List.flatMap_append, List.flatMap_singleton, hconsumed, List.append_nil]
    exact hsplit
  · intro n stream hget
    have hflat : (os ++ [t]).flatMap (Turn.answered n) = os.flatMap (Turn.answered n) := by
      rw [List.flatMap_append, List.flatMap_singleton, hanswered, List.append_nil]
    rw [hflat]
    by_cases hold : n < s.streams.length
    · have hget' : s.streams[n]? = some stream := by
        rcases hstreams with rfl | ⟨new, rfl⟩
        · exact hget
        · rwa [List.getElem?_append_left hold] at hget
      obtain ⟨rest, hsplit, -⟩ := h.framing.responses n stream hget'
      exact ⟨rest, hsplit, fun hserving => Bool.noConfusion hserving⟩
    · rw [answered_fresh fun x hx => Nat.lt_of_lt_of_le (h.numbers x hx) (Nat.not_lt.mp hold)]
      exact ⟨stream, rfl, fun hserving => Bool.noConfusion hserving⟩

/-- What the exchange took on either side, where it read plain messages. -/
theorem forward_taken {env : Env} {head client client' : Bytes} {r : Request} {up : Upstream}
    {x : Exchange} (hurl : env.Serialized) (h : r.Asked env head)
    (hplain : (fieldLines head).all plain = true) (hbody : plainBody r.headers client = true)
    (hanswers : plainAnswers (r.method == ascii "HEAD") (up.unread.length + 1) up.unread = true)
    (hx : forward r head client up = (x, client')) :
    x.head = head ∧ x.number = up.number ∧ x.relayed.Taken up.unread ∧
      ∃ rest, client = x.body ++ rest ∧ (x.relayed.how = .next → client' = rest) := by
  obtain ⟨rest, hsplit, hrest⟩ := (sent_delimits hurl h hplain hbody).split
  cases hx
  refine ⟨rfl, rfl, ?_, rest, hsplit, fun hnext => ?_⟩
  · dsimp only
    split
    · exact (relayFrom_framed r.close hanswers).2
    · exact noResponse_taken _ _
  · refine hrest ?_
    by_contra hbroken
    dsimp only at hnext
    rw [if_neg hbroken] at hnext
    cases hnext

theorem Proxy.Traced.exchanged {env : Env} {client : Bytes} {s s' : Proxy} {os : List Turn}
    {c : Option Bytes} {x : Exchange} (hurl : env.Serialized) (h : s.Traced client os)
    (hserving : s.serving = true) (hplain : plainTurn env s c = true)
    (hx : Exchanged env s c s' x) : s'.Traced client (os ++ [.exchange x]) := by
  obtain ⟨head, left, r, up, hread, hask, hreach, hconnect, hforward, hconn⟩ := hx.made
  obtain ⟨hinput, hblank⟩ := readHttpHead_spec hread
  have hasked := ask_request hask
  obtain ⟨⟨hlines, hbody⟩, hanswers⟩ :
      ((fieldLines head).all plain = true ∧ plainBody r.headers left = true) ∧
        plainAnswers (r.method == ascii "HEAD") (up.unread.length + 1) up.unread = true := by
    rw [plainTurn, hread] at hplain
    simpa [hask, hreach, hconnect] using hplain
  obtain ⟨hhead, hnumber, htaken, rest, hleft, hrest⟩ :=
    forward_taken hurl hasked hlines hbody hanswers hforward
  have hframed : x.Framed := by
    have hforward' := forward_framed up hurl hasked hblank hlines hbody hanswers
    rwa [hforward] at hforward'
  have hcase := reach_cases hreach
  have hlonger : s.streams.length ≤ s'.streams.length := by
    rcases hcase with ⟨-, heq⟩ | ⟨-, heq⟩ <;> rw [heq]
    simp
  have hup : up.number < s'.streams.length := by
    rcases hcase with ⟨hold, heq⟩ | ⟨hnew, heq⟩
    · rw [heq]
      exact h.connected up hold
    · rw [heq, hnew]
      simp
  refine ⟨⟨?_, ?_, ?_⟩, ?_, ?_⟩
  · obtain ⟨taken, hsplit, hnow⟩ := h.framing.requests
    refine ⟨rest, ?_, fun hs => hrest (hx.serving hs)⟩
    rw [hsplit, ← hnow hserving, hinput, hleft, List.flatMap_append, List.flatMap_singleton]
    simp only [Turn.consumed, hhead, List.append_assoc]
  · intro n stream hget
    rw [List.flatMap_append, List.flatMap_singleton]
    by_cases hn : n = up.number
    · -- the connection the exchange went over
      have hbefore : stream = os.flatMap (Turn.answered n) ++ up.unread := by
        rcases hcase with ⟨hold, heq⟩ | ⟨hnew, heq⟩
        · rw [heq] at hget
          obtain ⟨rest, hsplit, hnow⟩ := h.framing.responses n stream hget
          rw [hnow hserving up hold hn.symm]
          exact hsplit
        · rw [heq, hn, hnew] at hget
          have hstream : up.unread = stream := by simpa using hget
          rw [hn, hnew, answered_fresh h.numbers, hstream]
          rfl
      obtain ⟨rest, htake, hnow⟩ := htaken
      have hanswered : Turn.answered n (.exchange x) =
          x.relayed.interim.flatten ++ (x.relayed.response ++ x.relayed.answer) := by
        rw [Turn.answered, if_pos (by rw [hnumber, hn])]
      refine ⟨rest, ?_, fun hs up' hup' _ => ?_⟩
      · rw [hbefore, htake, hanswered]
        simp only [List.append_assoc]
      · rw [hconn] at hup'
        cases hup'
        exact hnow (hx.serving hs)
    · have hget' : s.streams[n]? = some stream := by
        rcases hcase with ⟨-, heq⟩ | ⟨hnew, heq⟩
        · rwa [heq] at hget
        · have hlt : n < s'.streams.length := (List.getElem?_eq_some_iff.mp hget).1
          rw [heq, List.length_append, List.length_singleton] at hlt
          rw [heq, List.getElem?_append_left (by omega)] at hget
          exact hget
      obtain ⟨rest, hsplit, -⟩ := h.framing.responses n stream hget'
      have hnone : Turn.answered n (.exchange x) = [] := by
        rw [Turn.answered, if_neg]
        rw [hnumber]
        exact fun heq => hn heq.symm
      refine ⟨rest, by rw [hnone, List.append_nil]; exact hsplit, fun _ up' hup' hn' => ?_⟩
      rw [hconn] at hup'
      cases hup'
      exact absurd hn'.symm hn
  · intro y hy
    rcases List.mem_append.mp hy with hy | hy
    · exact h.framing.exchanges y hy
    · cases List.mem_singleton.mp hy
      exact hframed
  · intro y hy
    rcases List.mem_append.mp hy with hy | hy
    · exact Nat.lt_of_lt_of_le (h.numbers y hy) hlonger
    · cases List.mem_singleton.mp hy
      rw [hnumber]
      exact hup
  · intro up' hup'
    rw [hconn] at hup'
    cases hup'
    exact hup

/-- In a run over plain heads every message goes as far as its header block says. -/
theorem framing_kept {env : Env} (hurl : env.Serialized) {client : Bytes} {s : Proxy}
    {cs : List (Option Bytes)} {os : List Turn}
    (h : (serveProxy env).Steps (accept client) cs os s)
    (hplain : (serveProxy env).Along (fun s c => plainTurn env s c = true) (accept client) cs) :
    Framing client s os := by
  have hinit : (accept client).Traced client [] :=
    ⟨⟨⟨client, rfl, fun _ => rfl⟩, fun n stream hget => (by cases hget),
      fun x hx => (List.not_mem_nil hx).elim⟩,
      fun x hx => (List.not_mem_nil hx).elim, fun up hup => (by cases hup)⟩
  have htraced : s.Traced client os := by
    refine h.tracing (I := fun s os => s.Traced client os) ?_ hplain hinit
    intro s c t os₀ os hI hC hs
    have hstep : (if s.serving then
        some ((serveTurn env s c).1, [(serveTurn env s c).2]) else none) = some (t, os) := hs
    split at hstep
    next hserving =>
      cases hstep
      rcases serveTurn_cases env s c with ⟨turn, streams, heq, hturn, hstreams⟩ | ⟨s', x, heq, hx⟩
      · rw [heq]
        exact hI.stopped hturn hstreams
      · rw [heq]
        exact hI.exchanged hurl hserving hC hx
    · cases hstep
  exact htraced.framing

/-- A crate that knows one address. -/
def oneSite : Env where
  auth := ascii "Basic cDpx"
  parseUrl target :=
    if target = ascii "http://a/x" then
      some { scheme := ascii "http", username := [], password := none, host := some (ascii "a"),
             port := none, path := ascii "/x", query := none }
    else none

theorem oneSite_serialized : oneSite.Serialized := by
  intro target url h
  obtain ⟨-, hurl⟩ := Option.ite_none_right_eq_some.mp h
  cases hurl
  exact ⟨by decide +kernel, fun q hq => by cases hq⟩

/-- A request in chunks, with an extension and a trailer, and part of the next one. -/
def chunkedRequest : Bytes :=
  ascii ("POST http://a/x HTTP/1.1\r\nProxy-Authorization: Basic cDpx\r\n" ++
    "Transfer-Encoding: chunked\r\n\r\n3;n=v\r\nabc\r\n0\r\nT: u\r\n\r\nGET")

def earlyAndCounted : Bytes :=
  ascii ("HTTP/1.1 103 Early Hints\r\n\r\n" ++
    "HTTP/1.1 200 OK\r\nContent-Length: 2\r\n\r\nokHTTP")

theorem framing_kept_chunked : ∃ s os, (serveProxy oneSite).Steps (accept chunkedRequest)
    [some earlyAndCounted] os s ∧ s.serving = true ∧ s.client = ascii "GET" ∧
      Framing chunkedRequest s os := by
  have hplain : (serveProxy oneSite).Along (fun s c => plainTurn oneSite s c = true)
      (accept chunkedRequest) [some earlyAndCounted] := ⟨by decide +kernel, fun _ _ _ => trivial⟩
  have hexec : ((serveProxy oneSite).exec (accept chunkedRequest) [some earlyAndCounted]).any
      (fun r => r.1.serving && r.1.client == ascii "GET") = true := by decide +kernel
  obtain ⟨s, os, hrun, hend⟩ := Machine.steps_of_any hexec
  obtain ⟨hserving, hclient⟩ := Bool.and_eq_true_iff.mp hend
  exact ⟨s, os, hrun, hserving, by simpa using hclient,
    framing_kept oneSite_serialized hrun hplain⟩

/-- A length with a blank before its colon. -/
def blankBeforeColon : Bytes :=
  ascii ("POST http://a/x HTTP/1.1\r\nProxy-Authorization: Basic cDpx\r\n" ++
    "Content-Length : 60\r\n\r\n")

def postedText : Bytes :=
  ascii "GET http://a/x HTTP/1.1\r\nProxy-Authorization: Basic cDpx\r\n\r\n"

/-- The exchange passed a header block on that has no fields. -/
def Turn.unread : Turn → Bool
  | .exchange x => x.accepted && (fieldsOf x.forwarded).isNone
  | _ => false

/-- The body of a request becomes the next request. -/
theorem length_overlooked : ∃ s os, (serveProxy oneSite).Steps
    (accept (blankBeforeColon ++ postedText))
    [some (ascii "HTTP/1.1 204 No Content\r\n\r\n"), none] os s ∧
      os.map Turn.consumed = [blankBeforeColon, postedText] ∧
      ¬Framing (blankBeforeColon ++ postedText) s os := by
  have hexec : ((serveProxy oneSite).exec (accept (blankBeforeColon ++ postedText))
      [some (ascii "HTTP/1.1 204 No Content\r\n\r\n"), none]).any (fun r =>
        r.2.map Turn.consumed == [blankBeforeColon, postedText] && r.2.any Turn.unread) = true := by
    decide +kernel
  obtain ⟨s, os, hrun, hend⟩ := Machine.steps_of_any hexec
  obtain ⟨hconsumed, hunread⟩ := Bool.and_eq_true_iff.mp hend
  refine ⟨s, os, hrun, by simpa using hconsumed, fun hframing => ?_⟩
  obtain ⟨t, ht, hturn⟩ := List.any_eq_true.mp hunread
  cases t with
  | exchange x =>
    obtain ⟨haccepted, hnone⟩ := Bool.and_eq_true_iff.mp hturn
    obtain ⟨fields, e, hfields, -⟩ := ((hframing.exchanges x ht).whole haccepted).body
    rw [hfields] at hnone
    cases hnone
  | refused reply => cases hturn
  | connected number => cases hturn

end CampusAuth.Network
