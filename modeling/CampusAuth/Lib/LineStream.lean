import CampusAuth.Lib.Lines

/- Streams of lines that are read in chunks through a bounded buffer.

   A chunk is put behind what the buffer holds; a buffer over its limit ends the reading, else the
   lines that have ended are handed on one after the other, and what is left open stays. A line
   can ask for the next, end the reading or fail.

   While the stream fits the buffer it does not matter how it is cut, but for what stands behind
   the line that ends the reading: the reader is left with a beginning of it (`read_fits`). A
   stream that does not fit is cut short at the first chunk of one cut and at a later line of
   another; a quiet one (of which nothing was passed on) is cut short under every cut exactly when
   it clogs: when a line that is too long comes before every line that tells anything
   (`Clogs.read`, `clogs_of_read`). -/
namespace CampusAuth.Lib

/-- What a line comes to. -/
inductive LineResult (σ ε : Type)
  | next (s : σ)
  | stop (s : σ)
  | fail (e : ε) (s : σ)

/-- What draining a buffer comes to. -/
inductive Drained (α σ ε : Type)
  | more (left : List α) (s : σ)
  | finished (rest : List α) (s : σ)
  | failed (e : ε) (s : σ)

/-- What reading all chunks comes to. -/
inductive Stopped (α σ ε : Type)
  | overflow (s : σ)
  | ended (left : List α) (s : σ)
  | finished (rest : List α) (s : σ)
  | failed (e : ε) (s : σ)

section
variable {α σ ε : Type} [DecidableEq α]

/-- Lines with their separators, and what stands behind them. -/
def joinLines (sep : α) (lines : List (List α)) (rest : List α) : List α :=
  lines.flatMap (· ++ [sep]) ++ rest

def drainLines (step : σ → List α → LineResult σ ε) (sep : α) :
    List (List α) → List α → σ → Drained α σ ε
  | [], left, s => .more left s
  | line :: lines, left, s =>
    match step s line with
    | .next s => drainLines step sep lines left s
    | .stop s => .finished (joinLines sep lines left) s
    | .fail e s => .failed e s

/-- Hands on the lines of the buffer that have ended. -/
def drain (step : σ → List α → LineResult σ ε) (sep : α) (buf : List α) (s : σ) : Drained α σ ε :=
  drainLines step sep (splitLines sep buf).1 (splitLines sep buf).2 s

def readChunks (step : σ → List α → LineResult σ ε) (sep : α) (limit : Nat) :
    List (List α) → List α → σ → Stopped α σ ε
  | [], buf, s => .ended buf s
  | chunk :: chunks, buf, s =>
    if limit < (buf ++ chunk).length then .overflow s
    else
      match drain step sep (buf ++ chunk) s with
      | .more left s => readChunks step sep limit chunks left s
      | .finished rest s => .finished rest s
      | .failed e s => .failed e s

variable {step : σ → List α → LineResult σ ε} {sep : α} {limit : Nat}

/-! ## One line after the other -/

/-- A stream is an open line, or a line and the stream behind it. -/
theorem lines_induction (sep : α) {motive : List α → Prop} (hopen : ∀ left, sep ∉ left → motive left)
    (hline : ∀ line rest, sep ∉ line → motive rest → motive (line ++ sep :: rest)) (xs : List α) :
    motive xs := by
  induction hn : xs.length using Nat.strongRecOn generalizing xs with
  | _ n ih =>
    rcases line_cases sep xs with hnot | ⟨line, rest, hnot, rfl⟩
    · exact hopen xs hnot
    · refine hline line rest hnot (ih rest.length ?_ rest rfl)
      rw [← hn, List.length_append, List.length_cons]
      omega

theorem joinLines_splitLines (sep : α) (xs : List α) :
    joinLines sep (splitLines sep xs).1 (splitLines sep xs).2 = xs := by
  induction xs using lines_induction sep with
  | hopen left hleft =>
    rw [splitLines_of_not_mem hleft]
    rfl
  | hline line rest hline ih =>
    rw [splitLines_line hline]
    show ((line ++ [sep]) ++ (splitLines sep rest).1.flatMap (· ++ [sep])) ++ _ = _
    rw [List.append_assoc, List.append_assoc]
    exact congrArg (fun t => line ++ sep :: t) ih

theorem drain_open {left : List α} (h : sep ∉ left) (s : σ) :
    drain step sep left s = .more left s := by
  rw [drain, splitLines_of_not_mem h]
  rfl

theorem drain_line {line : List α} (h : sep ∉ line) (rest : List α) (s : σ) :
    drain step sep (line ++ sep :: rest) s =
      match step s line with
      | .next s => drain step sep rest s
      | .stop s => .finished rest s
      | .fail e s => .failed e s := by
  rw [drain, splitLines_line h, drainLines]
  cases step s line with
  | next s => rfl
  | stop s =>
    dsimp only
    rw [joinLines_splitLines]
  | fail e s => rfl

/-- What was drained is not drained again. -/
theorem drain_append (xs ys : List α) (s : σ) :
    drain step sep (xs ++ ys) s =
      match drain step sep xs s with
      | .more left s => drain step sep (left ++ ys) s
      | .finished rest s => .finished (rest ++ ys) s
      | .failed e s => .failed e s := by
  induction xs using lines_induction sep generalizing s with
  | hopen left hleft => rw [drain_open hleft]
  | hline line rest hline ih =>
    rw [List.append_assoc, List.cons_append, drain_line hline, drain_line hline]
    cases step s line with
    | next s => exact ih s
    | stop s => rfl
    | fail e s => rfl

/-- What is left open has no separator and comes from the end of the buffer. -/
theorem drain_more {xs left : List α} {s t : σ} (h : drain step sep xs s = .more left t) :
    sep ∉ left ∧ left.length ≤ xs.length := by
  induction xs using lines_induction sep generalizing s with
  | hopen left hleft =>
    rw [drain_open hleft] at h
    cases h
    exact ⟨hleft, Nat.le_refl _⟩
  | hline line rest hline ih =>
    rw [drain_line hline] at h
    cases hstep : step s line with
    | next s' =>
      rw [hstep] at h
      obtain ⟨hnot, hle⟩ := ih h
      refine ⟨hnot, Nat.le_trans hle ?_⟩
      rw [List.length_append, List.length_cons]
      omega
    | stop s' =>
      rw [hstep] at h
      cases h
    | fail e s' =>
      rw [hstep] at h
      cases h

/-- The line that ends the reading, with everything before it. -/
theorem drain_finished {xs rest : List α} {s t : σ} (h : drain step sep xs s = .finished rest t) :
    ∃ before, xs = before ++ rest ∧ ∀ p, drain step sep (before ++ p) s = .finished p t := by
  induction xs using lines_induction sep generalizing s with
  | hopen left hleft =>
    rw [drain_open hleft] at h
    cases h
  | hline line rest' hline ih =>
    rw [drain_line hline] at h
    cases hstep : step s line with
    | next s' =>
      rw [hstep] at h
      obtain ⟨before, rfl, hbefore⟩ := ih h
      refine ⟨line ++ sep :: before, by rw [List.append_assoc, List.cons_append], fun p => ?_⟩
      rw [List.append_assoc, List.cons_append, drain_line hline, hstep]
      exact hbefore p
    | stop s' =>
      rw [hstep] at h
      cases h
      refine ⟨line ++ [sep], by rw [List.append_assoc, List.singleton_append], fun p => ?_⟩
      rw [List.append_assoc, List.singleton_append, drain_line hline, hstep]
    | fail e s' =>
      rw [hstep] at h
      cases h

/-! ## Streams that fit the buffer -/

/-- What all cuts of a stream agree on: behind the line that ends the reading they may hold
    different beginnings of what follows. -/
def Agrees : Drained α σ ε → Stopped α σ ε → Prop
  | .more left s, x => x = .ended left s
  | .finished rest s, x => ∃ p, p <+: rest ∧ x = .finished p s
  | .failed e s, x => x = .failed e s

theorem read_fits : ∀ (chunks : List (List α)) (buf : List α) (s : σ), sep ∉ buf →
    (buf ++ chunks.flatten).length ≤ limit →
    Agrees (drain step sep (buf ++ chunks.flatten) s) (readChunks step sep limit chunks buf s)
  | [], buf, s, hbuf, _ => by
    rw [List.flatten_nil, List.append_nil, drain_open hbuf]
    rfl
  | chunk :: chunks, buf, s, hbuf, hlimit => by
    rw [List.flatten_cons, ← List.append_assoc] at hlimit ⊢
    have hroom : ¬limit < (buf ++ chunk).length := by
      rw [List.length_append] at hlimit
      omega
    rw [readChunks, if_neg hroom, drain_append]
    cases hdrain : drain step sep (buf ++ chunk) s with
    | more left t =>
      obtain ⟨hleft, hle⟩ := drain_more hdrain
      refine read_fits chunks left t hleft ?_
      rw [List.length_append] at hlimit ⊢
      omega
    | finished rest t => exact ⟨rest, List.prefix_append _ _, rfl⟩
    | failed e t => rfl

/-! ## Streams that do not fit -/

/-- A line that does not fit the buffer comes before every line that ends the reading, fails or
    is not quiet. -/
inductive Clogs (step : σ → List α → LineResult σ ε) (sep : α) (limit : Nat) (quiet : σ → Prop) :
    σ → List α → Prop
  | here {s : σ} {xs : List α} : sep ∉ xs.take limit → limit < xs.length →
      Clogs step sep limit quiet s xs
  | line {s s' : σ} {line rest : List α} : sep ∉ line → line.length < limit →
      step s line = .next s' → quiet s' → Clogs step sep limit quiet s' rest →
      Clogs step sep limit quiet s (line ++ sep :: rest)

variable {quiet : σ → Prop}

/-- A beginning that fits the buffer is drained quietly, and what is left clogs. -/
theorem Clogs.drain {s : σ} {zs : List α} (h : Clogs step sep limit quiet s zs) :
    ∀ {xs ys : List α}, zs = xs ++ ys → xs.length ≤ limit → quiet s →
    ∃ left s', drain step sep xs s = .more left s' ∧ quiet s' ∧
      Clogs step sep limit quiet s' (left ++ ys) := by
  induction h with
  | @here s zs htake hlong =>
    rintro xs ys rfl hxs hs
    have hopen : sep ∉ xs := by
      intro hmem
      refine htake ?_
      rw [List.take_append]
      exact List.mem_append_left _ ((List.take_of_length_le hxs).symm ▸ hmem)
    exact ⟨xs, s, drain_open hopen s, hs, .here htake hlong⟩
  | @line s s' line rest hline hfits hstep hs' hrest ih =>
    intro xs ys hzs hxs hs
    obtain ⟨x, hx, hsplit⟩ | ⟨x, rfl, hys⟩ := List.append_eq_append_iff.mp hzs
    · -- the line ends within the beginning, or right behind it
      cases x with
      | nil =>
        rw [List.append_nil] at hx
        rw [List.nil_append] at hsplit
        subst hx hsplit
        exact ⟨_, s, drain_open hline s, hs, .line hline hfits hstep hs' hrest⟩
      | cons y x =>
        rw [List.cons_append] at hsplit
        obtain ⟨rfl, rfl⟩ := List.cons_eq_cons.mp hsplit
        subst hx
        rw [List.length_append, List.length_cons] at hxs
        obtain ⟨left, s'', hdrain, hquiet, hclogs⟩ := ih rfl (by omega) hs'
        refine ⟨left, s'', ?_, hquiet, hclogs⟩
        rw [drain_line hline, hstep]
        exact hdrain
    · have hopen : sep ∉ xs := fun hmem => hline (List.mem_append_left _ hmem)
      refine ⟨xs, s, drain_open hopen s, hs, ?_⟩
      rw [hys, ← List.append_assoc]
      exact .line hline hfits hstep hs' hrest

/-- A stream that clogs overflows the buffer under every cut, and quietly. -/
theorem Clogs.read : ∀ (chunks : List (List α)) (buf : List α) (s : σ), sep ∉ buf →
    buf.length ≤ limit → quiet s → Clogs step sep limit quiet s (buf ++ chunks.flatten) →
    ∃ s', readChunks step sep limit chunks buf s = .overflow s' ∧ quiet s'
  | [], buf, s, hbuf, hlimit, _, h => by
    rw [List.flatten_nil, List.append_nil] at h
    cases h with
    | here _ hlong => omega
    | line => exact absurd (List.mem_append_right _ List.mem_cons_self) hbuf
  | chunk :: chunks, buf, s, hbuf, hlimit, hs, h => by
    rw [readChunks]
    by_cases hover : limit < (buf ++ chunk).length
    · rw [if_pos hover]
      exact ⟨s, rfl, hs⟩
    · rw [List.flatten_cons, ← List.append_assoc] at h
      obtain ⟨left, s', hdrain, hs', hclogs⟩ := h.drain rfl (Nat.not_lt.mp hover) hs
      obtain ⟨hleft, hle⟩ := drain_more hdrain
      rw [if_neg hover, hdrain]
      exact Clogs.read chunks left s' hleft (by omega) hs' hclogs

/-- Quiet is what was quiet before. -/
def QuietBefore (step : σ → List α → LineResult σ ε) (quiet : σ → Prop) : Prop :=
  ∀ s line s', step s line = .next s' → quiet s' → quiet s

/-- Byte by byte only a stream that clogs overflows the buffer quietly. -/
theorem clogs_of_read (hquiet : QuietBefore step quiet) : ∀ (xs buf : List α) (s s' : σ), sep ∉ buf →
    buf.length ≤ limit → readChunks step sep limit (xs.map fun x => [x]) buf s = .overflow s' →
    quiet s' → quiet s ∧ Clogs step sep limit quiet s (buf ++ xs)
  | [], buf, s, s', _, _, h, _ => by cases h
  | x :: xs, buf, s, s', hbuf, hlimit, h, hs' => by
    rw [List.map_cons, readChunks] at h
    by_cases hover : limit < (buf ++ [x]).length
    · rw [if_pos hover] at h
      cases h
      rw [List.length_append, List.length_singleton] at hover
      refine ⟨hs', .here ?_ ?_⟩
      · rw [List.take_append_of_le_length (by omega)]
        exact fun hmem => hbuf (List.mem_of_mem_take hmem)
      · rw [List.length_append, List.length_cons]
        omega
    rw [if_neg hover] at h
    rw [List.length_append, List.length_singleton] at hover
    by_cases hsep : x = sep
    · rw [hsep, drain_line hbuf] at h
      cases hstep : step s buf with
      | next t =>
        rw [hstep] at h
        dsimp only at h
        rw [drain_open List.not_mem_nil] at h
        obtain ⟨ht, hclogs⟩ :=
          clogs_of_read hquiet xs [] t s' List.not_mem_nil (Nat.zero_le _) h hs'
        rw [hsep]
        exact ⟨hquiet s buf t hstep ht, .line hbuf (by omega) hstep ht hclogs⟩
      | stop t =>
        rw [hstep] at h
        cases h
      | fail e t =>
        rw [hstep] at h
        cases h
    · have hopen : sep ∉ buf ++ [x] := by
        rw [List.mem_append, List.mem_singleton]
        exact not_or.mpr ⟨hbuf, fun heq => hsep heq.symm⟩
      rw [drain_open hopen] at h
      have hrest := clogs_of_read hquiet xs (buf ++ [x]) s s' hopen (by
        rw [List.length_append, List.length_singleton]
        omega) h hs'
      rwa [List.append_assoc, List.singleton_append] at hrest

end
end CampusAuth.Lib
