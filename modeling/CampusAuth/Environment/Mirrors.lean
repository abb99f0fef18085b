import CampusAuth.Lib.Text
import Mathlib.Data.List.Perm.Basic

/- Downloads from one of several mirrors (`environment/uv.rs`: `rank_mirror_urls`,
   `download_text_with_mirrors` and the archive loop of `download_uv`).

   All mirrors are probed at once; those that answer are tried in the order of their latency. The
   documentation keeps the others behind them, the source drops them, unless no mirror answers
   (`fallback_complete_iff`). -/
namespace CampusAuth.Environment.Mirrors
open Lib

/-! ## The source -/

/-- How the probe of a mirror ends. -/
inductive Probe
  /-- The task panicked or was aborted. -/
  | died
  | timedOut
  /-- Whether HEAD was answered with success, and the GET behind it if not. -/
  | finished (head get : Bool) (elapsed : Nat)

/-- The latency of a mirror that may be used. -/
def Probe.latency : Probe → Option Nat
  | .finished head get elapsed => if head || get then some elapsed else none
  | _ => none

/-- The mirrors that answered, in the order of the list. -/
def answered (count : Nat) (probe : Nat → Probe) : List (Nat × Nat) :=
  (List.range count).filterMap fun idx => (probe idx).latency.map (idx, ·)

def rankMirrorUrls (count : Nat) (probe : Nat → Probe) : List Nat :=
  if count ≤ 1 then List.range count
  else
    let ranked := (answered count probe).mergeSort fun a b => a.2 ≤ b.2
    if ranked.isEmpty then List.range count else ranked.map (·.1)

/-- The mirrors that were tried, and what came of it. -/
structure Attempt (α : Type) where
  tried : List Nat
  result : Except Text α

/-- `download_text` gives a text or an error. -/
def downloadInOrder (download : Nat → Except Text Text) : List Nat → Text → Attempt Text
  | [], lastErr => ⟨[], .error ("所有镜像均失败: ".toList ++ lastErr)⟩
  | idx :: order, _ =>
    match download idx with
    | .ok text => ⟨[idx], .ok text⟩
    | .error e =>
      let rest := downloadInOrder download order e
      ⟨idx :: rest.tried, rest.result⟩

def downloadTextWithMirrors (urls : List Text) (probe : Nat → Probe)
    (download : Nat → Except Text Text) : Attempt Text :=
  downloadInOrder download (rankMirrorUrls urls.length probe) []

/-- The download of an archive under a time limit. -/
inductive Streaming
  | done
  | failed (error : Text)
  | timedOut

inductive Archive
  | downloaded
  | cancelled
  /-- No mirror gave it; the attempt is repeated. -/
  | failed (lastErr : Text)

/-- What the loop meets: whether it finds itself cancelled before and behind a download. -/
structure Loop where
  download : Nat → Streaming
  before : Nat → Bool
  behind : Nat → Bool

def Streaming.error : Streaming → Option Text
  | .done => none
  | .failed e => some e
  | .timedOut => some "下载超时 (超过 300s)".toList

def archiveLoop (l : Loop) : List Nat → Text → List Nat × Archive
  | [], lastErr => ([], .failed lastErr)
  | idx :: order, _ =>
    if l.before idx then ([], .cancelled)
    else
      match (l.download idx).error with
      | none => ([idx], .downloaded)
      | some e =>
        if l.behind idx then ([idx], .cancelled)
        else
          let rest := archiveLoop l order e
          (idx :: rest.1, rest.2)

def downloadArchive (urls : List Text) (probe : Nat → Probe) (l : Loop) : List Nat × Archive :=
  archiveLoop l (rankMirrorUrls urls.length probe) []

/-! ## Fall-back -/

/-- All mirrors, the ones that answered first and by their latency. -/
structure Ranked (count : Nat) (probe : Nat → Probe) (order : List Nat) : Prop where
  all : order.Perm (List.range count)
  first : ∃ usable others, order = usable ++ others ∧
    (∀ idx ∈ usable, (probe idx).latency.isSome = true) ∧
    (∀ idx ∈ others, (probe idx).latency = none) ∧
    usable.Pairwise fun a b =>
      (probe a).latency.getD 0 ≤ (probe b).latency.getD 0

/-- Every mirror is ranked, and none is left out when a download is given up. -/
structure Complete (urls : List Text) (probe : Nat → Probe) (download : Nat → Except Text Text)
    (l : Loop) : Prop where
  ranked : Ranked urls.length probe (rankMirrorUrls urls.length probe)
  text : ∀ e, (downloadTextWithMirrors urls probe download).result = .error e →
    ∀ idx < urls.length, idx ∈ (downloadTextWithMirrors urls probe download).tried ∧
      ∃ e, download idx = .error e
  archive : ∀ e, (downloadArchive urls probe l).2 = .failed e →
    ∀ idx < urls.length, idx ∈ (downloadArchive urls probe l).1 ∧
      ((l.download idx).error).isSome = true

/-- All mirrors answer, or none does, or there is only one. -/
def Uniform (count : Nat) (probe : Nat → Probe) : Prop :=
  count ≤ 1 ∨ (∀ idx < count, (probe idx).latency = none) ∨
    ∀ idx < count, (probe idx).latency.isSome = true

/-! ## The order -/

theorem mem_answered {count : Nat} {probe : Nat → Probe} {idx d : Nat} :
    (idx, d) ∈ answered count probe ↔ idx < count ∧ (probe idx).latency = some d := by
  simp only [answered, List.mem_filterMap, List.mem_range, Option.map_eq_some_iff, Prod.mk.injEq]
  constructor
  · rintro ⟨i, hi, e, he, rfl, rfl⟩
    exact ⟨hi, he⟩
  · rintro ⟨hi, hd⟩
    exact ⟨idx, hi, d, hd, rfl, rfl⟩

theorem answered_fst (count : Nat) (probe : Nat → Probe) :
    (answered count probe).map (·.1) =
      (List.range count).filter fun idx => (probe idx).latency.isSome := by
  rw [answered, List.map_filterMap, ← List.filterMap_eq_filter]
  refine List.filterMap_congr fun idx _ => ?_
  cases h : (probe idx).latency with
  | none => simp [Option.guard, h]
  | some d => simp [Option.guard, h]

/-- The mirrors that answered, sorted. -/
def ranked (count : Nat) (probe : Nat → Probe) : List (Nat × Nat) :=
  (answered count probe).mergeSort fun a b => a.2 ≤ b.2

theorem mem_ranked {count : Nat} {probe : Nat → Probe} {idx : Nat} :
    idx ∈ (ranked count probe).map (·.1) ↔
      idx < count ∧ (probe idx).latency.isSome = true := by
  have hperm := (List.mergeSort_perm (answered count probe) fun a b => decide (a.2 ≤ b.2)).map
    fun x => x.1
  rw [ranked, hperm.mem_iff, answered_fst, List.mem_filter, List.mem_range]

theorem ranked_sorted (count : Nat) (probe : Nat → Probe) :
    ((ranked count probe).map (·.1)).Pairwise fun a b =>
      (probe a).latency.getD 0 ≤ (probe b).latency.getD 0 := by
  have hsorted : (ranked count probe).Pairwise fun a b => a.2 ≤ b.2 := by
    have htrans : ∀ a b c : Nat × Nat, decide (a.2 ≤ b.2) = true → decide (b.2 ≤ c.2) = true →
        decide (a.2 ≤ c.2) = true := fun a b c hab hbc =>
      decide_eq_true ((of_decide_eq_true hab).trans (of_decide_eq_true hbc))
    have htotal : ∀ a b : Nat × Nat, (decide (a.2 ≤ b.2) || decide (b.2 ≤ a.2)) = true :=
      fun a b => by simp only [Bool.or_eq_true, decide_eq_true_eq]; omega
    exact (List.pairwise_mergeSort htrans htotal (answered count probe)).imp of_decide_eq_true
  have hlatency : ∀ a ∈ ranked count probe, (probe a.1).latency.getD 0 = a.2 := by
    rintro ⟨idx, d⟩ hmem
    rw [(mem_answered.mp ((List.mergeSort_perm _ _).mem_iff.mp hmem)).2, Option.getD_some]
  rw [List.pairwise_map]
  refine hsorted.imp_of_mem fun ha hb hle => ?_
  rw [hlatency _ ha, hlatency _ hb]
  exact hle

theorem rank_cases (count : Nat) (probe : Nat → Probe) :
    rankMirrorUrls count probe = List.range count ∧
      (count ≤ 1 ∨ ∀ idx < count, (probe idx).latency = none) ∨
    rankMirrorUrls count probe = (ranked count probe).map (·.1) ∧ 1 < count ∧
      ∃ idx < count, (probe idx).latency.isSome = true := by
  unfold rankMirrorUrls
  split
  next hfew => exact .inl ⟨rfl, .inl hfew⟩
  next hmany =>
    dsimp only
    split
    next hempty =>
      refine .inl ⟨rfl, .inr fun idx hidx => ?_⟩
      by_contra hsome
      have hmem : idx ∈ (ranked count probe).map (·.1) :=
        mem_ranked.mpr ⟨hidx, Option.isSome_iff_ne_none.mpr hsome⟩
      have hnil : ranked count probe = [] := List.isEmpty_iff.mp hempty
      rw [hnil] at hmem
      cases hmem
    next hsome =>
      have hne : ranked count probe ≠ [] := fun hnil => hsome (List.isEmpty_iff.mpr hnil)
      obtain ⟨⟨idx, d⟩, hmem⟩ := List.exists_mem_of_ne_nil _ hne
      have hidx := mem_ranked.mp (List.mem_map_of_mem (f := Prod.fst) hmem)
      exact .inr ⟨rfl, Nat.lt_of_not_le hmany, idx, hidx⟩

theorem ranked_of_none {count : Nat} {probe : Nat → Probe}
    (h : ∀ idx < count, (probe idx).latency = none) : Ranked count probe (List.range count) where
  all := List.Perm.refl _
  first := ⟨[], List.range count, rfl, fun _ hidx => (List.not_mem_nil hidx).elim,
    fun idx hidx => h idx (List.mem_range.mp hidx), List.Pairwise.nil⟩

theorem ranked_of_few {count : Nat} {probe : Nat → Probe} (h : count ≤ 1) :
    Ranked count probe (List.range count) := by
  by_cases hnone : ∀ idx < count, (probe idx).latency = none
  · exact ranked_of_none hnone
  · -- the only mirror answered
    push Not at hnone
    obtain ⟨idx, hidx, hsome⟩ := hnone
    obtain rfl : count = 1 := by omega
    obtain rfl : idx = 0 := by omega
    refine ⟨List.Perm.refl _, [0], [], rfl, fun i hi => ?_, fun _ hi => (List.not_mem_nil hi).elim,
      List.pairwise_singleton _ _⟩
    rw [List.mem_singleton.mp hi]
    exact Option.isSome_iff_ne_none.mpr hsome

theorem ranked_of_all {count : Nat} {probe : Nat → Probe}
    (h : ∀ idx < count, (probe idx).latency.isSome = true) :
    Ranked count probe ((ranked count probe).map (·.1)) where
  all := by
    have hperm := (List.mergeSort_perm (answered count probe) fun a b =>
      decide (a.2 ≤ b.2)).map (·.1)
    rw [answered_fst, List.filter_eq_self.mpr fun idx hidx => h idx (List.mem_range.mp hidx)] at hperm
    exact hperm
  first := ⟨_, [], (List.append_nil _).symm, fun idx hidx => (mem_ranked.mp hidx).2,
    fun _ hidx => (List.not_mem_nil hidx).elim, ranked_sorted count probe⟩

/-- The order is complete exactly over probes that do not differ. -/
theorem ranked_iff (count : Nat) (probe : Nat → Probe) :
    Ranked count probe (rankMirrorUrls count probe) ↔ Uniform count probe := by
  constructor
  · intro h
    rcases rank_cases count probe with ⟨-, hfew | hnone⟩ | ⟨heq, -, -⟩
    · exact .inl hfew
    · exact .inr (.inl hnone)
    · refine .inr (.inr fun idx hidx => ?_)
      have hmem := h.all.mem_iff.mpr (List.mem_range.mpr hidx)
      rw [heq] at hmem
      exact (mem_ranked.mp hmem).2
  · intro h
    rcases rank_cases count probe with ⟨heq, hfew | hnone⟩ | ⟨heq, hmany, i, hi, hsome⟩
    · rw [heq]
      exact ranked_of_few hfew
    · rw [heq]
      exact ranked_of_none hnone
    · rw [heq]
      rcases h with hfew | hnone | hall
      · omega
      · rw [hnone i hi] at hsome
        cases hsome
      · exact ranked_of_all hall

/-! ## The loops -/

/-- A text is given up when every mirror in the order failed. -/
theorem downloadInOrder_error {download : Nat → Except Text Text} {order : List Nat}
    {lastErr e : Text} (h : (downloadInOrder download order lastErr).result = .error e) :
    ∀ idx ∈ order, idx ∈ (downloadInOrder download order lastErr).tried ∧
      ∃ e, download idx = .error e := by
  induction order generalizing lastErr with
  | nil => exact fun idx hidx => (List.not_mem_nil hidx).elim
  | cons i order ih =>
    rw [downloadInOrder] at h ⊢
    cases hi : download i with
    | ok text =>
      rw [hi] at h
      cases h
    | error e' =>
      rw [hi] at h
      dsimp only at h ⊢
      intro idx hidx
      rcases List.mem_cons.mp hidx with rfl | hidx
      · exact ⟨List.mem_cons_self, e', hi⟩
      · obtain ⟨htried, herror⟩ := ih h idx hidx
        exact ⟨List.mem_cons_of_mem i htried, herror⟩

theorem archiveLoop_failed {l : Loop} {order : List Nat} {lastErr e : Text}
    (h : (archiveLoop l order lastErr).2 = .failed e) :
    ∀ idx ∈ order, idx ∈ (archiveLoop l order lastErr).1 ∧
      ((l.download idx).error).isSome = true := by
  induction order generalizing lastErr with
  | nil => exact fun idx hidx => (List.not_mem_nil hidx).elim
  | cons i order ih =>
    rw [archiveLoop] at h ⊢
    split at h
    · cases h
    next hbefore =>
      rw [if_neg hbefore]
      cases hi : (l.download i).error with
      | none =>
        rw [hi] at h
        cases h
      | some e' =>
        rw [hi] at h
        dsimp only at h ⊢
        split at h
        · cases h
        next hbehind =>
          rw [if_neg hbehind]
          intro idx hidx
          rcases List.mem_cons.mp hidx with rfl | hidx
          · exact ⟨List.mem_cons_self, by rw [hi]; rfl⟩
          · obtain ⟨htried, herror⟩ := ih h idx hidx
            exact ⟨List.mem_cons_of_mem i htried, herror⟩

/-- No mirror is dropped exactly when the probes do not differ. -/
theorem fallback_complete_iff (urls : List Text) (probe : Nat → Probe)
    (download : Nat → Except Text Text) (l : Loop) :
    Complete urls probe download l ↔ Uniform urls.length probe := by
  rw [← ranked_iff]
  constructor
  · exact Complete.ranked
  · intro h
    have hmem : ∀ idx < urls.length, idx ∈ rankMirrorUrls urls.length probe := fun idx hidx =>
      h.all.mem_iff.mpr (List.mem_range.mpr hidx)
    exact ⟨h, fun e he idx hidx => downloadInOrder_error he idx (hmem idx hidx),
      fun e he idx hidx => archiveLoop_failed he idx (hmem idx hidx)⟩

/-- The first mirror answers its probe, the second one does not. -/
def oneAnswers (idx : Nat) : Probe := if idx = 0 then .finished true true 5 else .timedOut

theorem rank_oneAnswers : rankMirrorUrls 2 oneAnswers = [0] := by
  have hanswered : answered 2 oneAnswers = [(0, 5)] := by decide
  rw [rankMirrorUrls, if_neg (by decide), hanswered, List.mergeSort_singleton]
  rfl

/-- The download is given up without the mirror that has it. -/
theorem dropped_mirror : ¬Complete ["a".toList, "b".toList] oneAnswers
    (fun idx => if idx = 0 then .error "404".toList else .ok "sum".toList)
    { download := fun idx => if idx = 0 then .failed "404".toList else .done,
      before := fun _ => false, behind := fun _ => false } := by
  intro h
  have hrank : rankMirrorUrls ["a".toList, "b".toList].length oneAnswers = [0] := rank_oneAnswers
  have hgiven : (downloadTextWithMirrors ["a".toList, "b".toList] oneAnswers
      fun idx => if idx = 0 then .error "404".toList else .ok "sum".toList) =
        ⟨[0], .error "所有镜像均失败: 404".toList⟩ := by
    rw [downloadTextWithMirrors, hrank]
    rfl
  obtain ⟨-, e, he⟩ := h.text _ (by rw [hgiven]) 1 (by decide)
  cases he

end CampusAuth.Environment.Mirrors
