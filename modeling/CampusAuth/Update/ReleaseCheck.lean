import CampusAuth.Lib.Numerals
import CampusAuth.Lib.Serde
import CampusAuth.Lib.StableSort

/- The check for an update over a list of releases (`updater/check.rs`).

   The channel's release of the highest version is tried first, and as long as the one tried has
   no package for the platform or no checksum for it, the other releases of the list from the
   highest version down, those of other channels among them. -/
namespace CampusAuth.Update
open Lib

inductive UpdateChannel where
  | stable | prerelease | all
  deriving DecidableEq

inductive UpdaterError where
  | manifestParseFailed
  | versionParseFailed
  | platformNotAvailable
  | checksumUnavailable
  | noMatchingRelease
  | manifestFetchFailed
  | rateLimited
  | httpsRequired
  deriving DecidableEq

/-- The package is missing, or its checksum. -/
def UpdaterError.recoverable (e : UpdaterError) : Bool :=
  e = .platformNotAvailable ∨ e = .checksumUnavailable

structure PlatformPackage where
  url : Text
  sha256 : Text
  size : Option Nat
  deriving DecidableEq

structure ReleaseManifest (V : Type*) where
  version : V
  releaseDate : Option Text
  changelog : Option Text
  platforms : List (Text × PlatformPackage)

/-- The libraries and the network, as the check meets them. -/
structure Remote (V : Type*) where
  /-- `Version::parse` -/
  parseVersion : Text → Option V
  /-- `to_lowercase` -/
  lower : Text → Text
  /-- The text that a GET of the URL brings, if it succeeds. -/
  text : Text → Option Text
  /-- `CURRENT_PLATFORM_KEY` -/
  platformKey : Text

/-! ## A release -/

def contains (name : Text) (part : String) : Bool := name.tails.any (part.toList.isPrefixOf ·)

def inferPlatformKey (name : Text) : Option String :=
  let isX64 := contains name "x86_64" || contains name "x64" || contains name "amd64"
  let isArm64 := contains name "aarch64" || contains name "arm64"
  let isArm := isArm64 || contains name "arm"
  if contains name "openwrt" then
    if !contains name "musl" then none
    else
      match isX64, isArm64, contains name "armv7" with
      | true, false, false => some "openwrt-x64"
      | false, true, false => some "openwrt-arm64"
      | false, false, true => some "openwrt-armv7"
      | _, _, _ => none
  else if contains name "linux" && contains name "musl" then
    match isX64, isArm64 with
    | true, false => some "linux-musl-x64"
    | false, true => some "linux-musl-arm64"
    | _, _ => none
  else if contains name "windows" then
    if isX64 then some "windows-x64" else if isArm then some "windows-arm64" else none
  else if contains name "linux" then
    if isX64 then some "linux-x64" else if isArm64 then some "linux-arm64" else none
  else if contains name "macos" || contains name "darwin" then
    if isArm then some "macos-arm64" else some "macos-x64"
  else none

/-- A text member. -/
def textMember (j : Json) (name : String) : Option Text :=
  ((j.get name).bind Json.asStr).map String.toList

section
variable {V : Type*} (remote : Remote V)

def assetName (asset : Json) : Text := remote.lower ((textMember asset "name").getD [])

/-- The first package of the platform: URL, size and name. -/
def collectCurrentPlatformAsset (assets : List Json) : Option (Text × Option Nat × Text) :=
  let asset := assets.find? fun asset =>
    !".sha256".toList.isSuffixOf (assetName remote asset) &&
      ((inferPlatformKey (assetName remote asset)).map String.toList == some remote.platformKey)
  asset.map fun asset =>
    ((textMember asset "browser_download_url").getD [], (asset.get "size").bind Json.asU64,
      assetName remote asset)

/-- The checksum beside a package; empty when there is none to be had. -/
def fetchSha256Assoc (assets : List Json) (zipName : Text) : Text :=
  let asset := assets.find? fun asset =>
    (textMember asset "name").map remote.lower == some (zipName ++ ".sha256".toList)
  match asset with
  | none => []
  | some asset =>
    let url := (textMember asset "browser_download_url").getD []
    if url.isEmpty then []
    else
      match remote.text url with
      | some body => ((words isWhitespace body).head?).getD []
      | none => []

def releaseVersion (release : Json) : Option V :=
  (textMember release "tag_name").bind fun tag =>
    remote.parseVersion ((tag.dropPrefix? ['v']).getD tag)

def releaseAssets (release : Json) : List Json :=
  ((release.get "assets").bind Json.asArray).getD []

def manifestFromGithubRelease (release : Json) : Except UpdaterError (ReleaseManifest V) :=
  match textMember release "tag_name" with
  | none => .error .manifestParseFailed
  | some tag =>
    match remote.parseVersion ((tag.dropPrefix? ['v']).getD tag) with
    | none => .error .versionParseFailed
    | some version =>
      match collectCurrentPlatformAsset remote (releaseAssets release) with
      | none => .error .platformNotAvailable
      | some (url, size, name) =>
        let sha256 := fetchSha256Assoc remote (releaseAssets release) name
        if sha256.isEmpty then .error .checksumUnavailable
        else .ok {
          version, releaseDate := textMember release "published_at",
          changelog := textMember release "body",
          platforms := [(remote.platformKey, ⟨url, sha256, size⟩)] }

end

/-! ## The list -/

/-- A release with its place in the list: the source compares candidates by address. -/
abbrev Listed := Json × Nat

def isDraft (release : Json) : Bool := ((release.get "draft").bind Json.asBool).getD false

def inChannel (channel : UpdateChannel) (release : Json) : Bool :=
  let pre := ((release.get "prerelease").bind Json.asBool).getD false
  match channel with
  | .stable => !pre
  | .prerelease => pre
  | .all => true

section
variable {V : Type*} [LinearOrder V] (remote : Remote V)

/-- The releases that are not drafts and have a version, with it. -/
def versioned (releases : List Listed) : List (V × Listed) :=
  (releases.filter fun r => !isDraft r.1).filterMap fun r =>
    (releaseVersion remote r.1).map fun v => (v, r)

def releasesSortedByVersionDesc (releases : List Listed) : List Listed :=
  (sortByKey (fun entry : V × Listed => OrderDual.toDual entry.1)
    (versioned remote releases)).map Prod.snd

def selectReleaseForChannel (releases : List Listed) (channel : UpdateChannel) : Option Listed :=
  (lastGreatest Prod.fst (versioned remote (releases.filter fun r => inChannel channel r.1))).map
    Prod.snd

/-- Tries one candidate after the other; `last` is the error of the one before. -/
def tryCandidates (last : Option UpdaterError) :
    List Listed → Except UpdaterError (ReleaseManifest V)
  | [] => .error (last.getD .noMatchingRelease)
  | candidate :: rest =>
    match manifestFromGithubRelease remote candidate.1 with
    | .ok manifest => .ok manifest
    | .error e => if e.recoverable then tryCandidates (some e) rest else .error e

/-- The candidates in their order. -/
def candidatesFrom (best : Listed) (releases : List Listed) : List Listed :=
  best :: (releasesSortedByVersionDesc remote releases).filter fun r => r.2 != best.2

/-- `single` is the manifest of the latest release; `listing` the answer to the request for the
    list, where the source has one. -/
def fetchManifestForChannel (channel : UpdateChannel)
    (single : Except UpdaterError (ReleaseManifest V))
    (listing : Option (Except UpdaterError (List Json))) :
    Except UpdaterError (ReleaseManifest V) :=
  if channel = .stable then single
  else
    match listing with
    | none => single
    | some (.error e) => .error e
    | some (.ok releases) =>
      match selectReleaseForChannel remote releases.zipIdx channel with
      | none => if channel = .prerelease then single else .error .noMatchingRelease
      | some best => tryCandidates remote none (candidatesFrom remote best releases.zipIdx)

end

/-! ## What is chosen -/

section
variable {V : Type*} {remote : Remote V}

/-- A release that is no draft, with its version. -/
structure Offered (remote : Remote V) (releases : List Json) (r : Listed) (v : V) : Prop where
  mem : r ∈ releases.zipIdx
  published : isDraft r.1 = false
  version : releaseVersion remote r.1 = some v

/-- The package for the platform is there with its checksum. -/
def Complete (remote : Remote V) (release : Json) : Prop :=
  ∃ url size name, collectCurrentPlatformAsset remote (releaseAssets release) = some (url, size, name) ∧
    fetchSha256Assoc remote (releaseAssets release) name ≠ []

/-- The release of the channel with the highest version; of equals the last in the list. -/
structure Best [LT V] (remote : Remote V) (releases : List Json) (channel : UpdateChannel) (r : Listed)
    (v : V) : Prop extends Offered remote releases r v where
  own : inChannel channel r.1 = true
  highest : ∀ r' v', Offered remote releases r' v' → inChannel channel r'.1 = true →
    v' < v ∨ v' = v ∧ r'.2 ≤ r.2

/-- All other releases from the highest version down; equals in the order of the list. -/
structure Descending [LT V] (remote : Remote V) (releases : List Json) (best : Listed)
    (rest : List Listed) : Prop where
  mem : ∀ r, r ∈ rest ↔ (∃ v, Offered remote releases r v) ∧ r.2 ≠ best.2
  sorted : rest.Pairwise fun r r' => ∀ v v', releaseVersion remote r.1 = some v →
    releaseVersion remote r'.1 = some v' → v' < v ∨ v' = v ∧ r.2 < r'.2

theorem mem_versioned {releases : List Listed} {entry : V × Listed} :
    entry ∈ versioned remote releases ↔ entry.2 ∈ releases ∧ isDraft entry.2.1 = false ∧
      releaseVersion remote entry.2.1 = some entry.1 := by
  unfold versioned
  rw [List.mem_filterMap]
  constructor
  · rintro ⟨r, hr, hentry⟩
    obtain ⟨hmem, hdraft⟩ := List.mem_filter.mp hr
    obtain ⟨v, hv, rfl⟩ := Option.map_eq_some_iff.mp hentry
    exact ⟨hmem, by simpa using hdraft, hv⟩
  · rintro ⟨hmem, hdraft, hv⟩
    exact ⟨entry.2, List.mem_filter.mpr ⟨hmem, by simp [hdraft]⟩, by rw [hv]; rfl⟩

theorem versioned_pairwise {releases : List Listed}
    (h : releases.Pairwise fun r r' => r.2 < r'.2) :
    (versioned remote releases).Pairwise fun a b => a.2.2 < b.2.2 := by
  unfold versioned
  rw [List.pairwise_filterMap]
  refine (h.sublist List.filter_sublist).imp fun {r r'} hlt a ha b hb => ?_
  obtain ⟨v, _, rfl⟩ := Option.map_eq_some_iff.mp ha
  obtain ⟨v', _, rfl⟩ := Option.map_eq_some_iff.mp hb
  exact hlt

theorem zipIdx_pairwise (releases : List Json) :
    releases.zipIdx.Pairwise fun r r' => r.2 < r'.2 := by
  rw [List.pairwise_iff_getElem]
  intro i j hi hj hlt
  simpa using hlt

variable [LinearOrder V]

theorem select_best {releases : List Json} {channel : UpdateChannel} {best : Listed}
    (h : selectReleaseForChannel remote releases.zipIdx channel = some best) :
    ∃ v, Best remote releases channel best v := by
  obtain ⟨⟨v, r⟩, hgreatest, rfl⟩ := Option.map_eq_some_iff.mp h
  obtain ⟨before, after, hsplit, hbefore, hafter⟩ := lastGreatest_spec hgreatest
  have hmem : ∀ entry, entry ∈ before ++ (v, r) :: after ↔ (entry.2 ∈ releases.zipIdx ∧
      inChannel channel entry.2.1 = true) ∧ isDraft entry.2.1 = false ∧
      releaseVersion remote entry.2.1 = some entry.1 := by
    intro entry
    rw [← hsplit, mem_versioned, List.mem_filter]
  have hpairwise := @versioned_pairwise _ remote _
    ((zipIdx_pairwise releases).sublist (@List.filter_sublist _ (fun r => inChannel channel r.1) _))
  rw [hsplit] at hpairwise
  obtain ⟨⟨hr, hchannel⟩, hpublished, hversion⟩ := (hmem (v, r)).mp (by simp)
  refine ⟨v, ⟨⟨hr, hpublished, hversion⟩, hchannel, fun r' v' hoffered hin => ?_⟩⟩
  have hentry := (hmem (v', r')).mpr ⟨⟨hoffered.mem, hin⟩, hoffered.published, hoffered.version⟩
  rcases List.mem_append.mp hentry with hentry | hentry
  · -- What stands before has a smaller place.
    have hplace := (List.pairwise_append.mp hpairwise).2.2 _ hentry _ List.mem_cons_self
    rcases (hbefore _ hentry).lt_or_eq with hlt | heq
    · exact .inl hlt
    · exact .inr ⟨heq, hplace.le⟩
  · rcases List.mem_cons.mp hentry with heq | hentry
    · cases heq
      exact .inr ⟨rfl, le_rfl⟩
    · exact .inl (hafter _ hentry)

theorem select_none {releases : List Json} {channel : UpdateChannel}
    (h : selectReleaseForChannel remote releases.zipIdx channel = none) :
    ∀ r v, Offered remote releases r v → inChannel channel r.1 = false := by
  intro r v hoffered
  have hnil := lastGreatest_eq_none.mp (Option.map_eq_none_iff.mp h)
  by_contra hin
  have hmem : (v, r) ∈ versioned remote (releases.zipIdx.filter fun r => inChannel channel r.1) :=
    mem_versioned.mpr ⟨List.mem_filter.mpr ⟨hoffered.mem, by simpa using hin⟩, hoffered.published,
      hoffered.version⟩
  rw [hnil] at hmem
  cases hmem

theorem mem_sortedDesc {releases : List Json} {r : Listed} :
    r ∈ releasesSortedByVersionDesc remote releases.zipIdx ↔ ∃ v, Offered remote releases r v := by
  unfold releasesSortedByVersionDesc
  rw [List.mem_map]
  constructor
  · rintro ⟨⟨v, r⟩, hentry, rfl⟩
    obtain ⟨hmem, hpublished, hversion⟩ := mem_versioned.mp (mem_sortByKey.mp hentry)
    exact ⟨v, hmem, hpublished, hversion⟩
  · rintro ⟨v, hmem, hpublished, hversion⟩
    exact ⟨(v, r), mem_sortByKey.mpr (mem_versioned.mpr ⟨hmem, hpublished, hversion⟩), rfl⟩

theorem descending_candidates (releases : List Json) (best : Listed) :
    Descending remote releases best
      ((releasesSortedByVersionDesc remote releases.zipIdx).filter fun r => r.2 != best.2) := by
  constructor
  · intro r
    rw [List.mem_filter, mem_sortedDesc, bne_iff_ne]
  · refine List.Pairwise.sublist List.filter_sublist ?_
    unfold releasesSortedByVersionDesc
    rw [List.pairwise_map]
    have hstable := @sortByKey_stable _ _ _ (fun entry : V × Listed => OrderDual.toDual entry.1) _ _
      (@versioned_pairwise _ remote _ (zipIdx_pairwise releases))
    refine hstable.imp_of_mem fun {a b} ha hb hab v v' hv hv' => ?_
    obtain ⟨_, _, hva⟩ := mem_versioned.mp (mem_sortByKey.mp ha)
    obtain ⟨_, _, hvb⟩ := mem_versioned.mp (mem_sortByKey.mp hb)
    cases hva.symm.trans hv
    cases hvb.symm.trans hv'
    rcases hab with hlt | ⟨heq, hplace⟩
    · exact .inl (OrderDual.toDual_lt_toDual.mp hlt)
    · exact .inr ⟨(OrderDual.toDual_inj.mp heq).symm, hplace⟩

/-- There is no other. -/
theorem best_unique {releases : List Json} {channel : UpdateChannel} {r r' : Listed} {v v' : V}
    (h : Best remote releases channel r v) (h' : Best remote releases channel r' v') : r = r' := by
  have hplace : r.2 = r'.2 := by
    rcases h.highest r' v' h'.toOffered h'.own with hlt | ⟨_, hle⟩
    · rcases h'.highest r v h.toOffered h.own with hlt' | ⟨heq, _⟩
      · exact absurd (hlt.trans hlt') (lt_irrefl _)
      · exact absurd hlt (by simp [heq])
    · rcases h'.highest r v h.toOffered h.own with hlt' | ⟨_, hle'⟩
      · exact absurd hlt' (by simp_all)
      · exact le_antisymm hle' hle
  have hr := List.mem_zipIdx_iff_getElem?.mp h.mem
  have hr' := List.mem_zipIdx_iff_getElem?.mp h'.mem
  rw [← hplace] at hr'
  exact Prod.ext (Option.some.inj (hr.symm.trans hr')) hplace

omit [LinearOrder V] in
/-- What becomes of a release that has a version. -/
theorem manifest_cases {release : Json} {v : V} (h : releaseVersion remote release = some v) :
    (Complete remote release ∧ ∃ m, manifestFromGithubRelease remote release = .ok m ∧
      m.version = v) ∨
    (¬Complete remote release ∧ ∃ e, manifestFromGithubRelease remote release = .error e ∧
      e.recoverable = true) := by
  obtain ⟨tag, htag, hversion⟩ := Option.bind_eq_some_iff.mp h
  unfold manifestFromGithubRelease Complete
  rw [htag]
  dsimp only
  rw [hversion]
  dsimp only
  cases hasset : collectCurrentPlatformAsset remote (releaseAssets release) with
  | none => exact .inr ⟨by simp, _, rfl, by decide⟩
  | some asset =>
    obtain ⟨url, size, name⟩ := asset
    dsimp only
    by_cases hsha : fetchSha256Assoc remote (releaseAssets release) name = []
    · exact .inr ⟨by simpa using hsha, _, if_pos (by simp [hsha]), by decide⟩
    · exact .inl ⟨⟨url, size, name, rfl, hsha⟩, _, if_neg (by simp [hsha]), rfl⟩

omit [LinearOrder V] in
/-- The first complete candidate is taken. -/
theorem tryCandidates_cases : ∀ (candidates : List Listed) (last : Option UpdaterError),
    (∀ r ∈ candidates, ∃ v, releaseVersion remote r.1 = some v) →
    (∃ before r after m, candidates = before ++ r :: after ∧
      (∀ x ∈ before, ¬Complete remote x.1) ∧ Complete remote r.1 ∧
      manifestFromGithubRelease remote r.1 = .ok m ∧
      tryCandidates remote last candidates = .ok m) ∨
    ((∀ x ∈ candidates, ¬Complete remote x.1) ∧
      tryCandidates remote last candidates = .error (last.getD .noMatchingRelease) ∨
      (∀ x ∈ candidates, ¬Complete remote x.1) ∧
        ∃ e, tryCandidates remote last candidates = .error e ∧ e.recoverable = true)
  | [], last, _ => .inr (.inl ⟨by simp, rfl⟩)
  | r :: rest, last, h => by
    obtain ⟨⟨v, hv⟩, hrest⟩ := List.forall_mem_cons.mp h
    unfold tryCandidates
    rcases manifest_cases hv with ⟨hcomplete, m, hm, _⟩ | ⟨hmissing, e, he, hrecoverable⟩
    · refine .inl ⟨[], r, rest, m, rfl, by simp, hcomplete, hm, ?_⟩
      rw [hm]
    · rw [he]
      dsimp only
      rw [if_pos hrecoverable]
      rcases tryCandidates_cases rest (some e) hrest with
        ⟨before, r', after, m, rfl, hbefore, hcomplete, hm, hrun⟩ | ⟨hnone, hrun⟩ | ⟨hnone, hrun⟩
      · exact .inl ⟨r :: before, r', after, m, rfl, List.forall_mem_cons.mpr ⟨hmissing, hbefore⟩,
          hcomplete, hm, hrun⟩
      · exact .inr (.inr ⟨List.forall_mem_cons.mpr ⟨hmissing, hnone⟩, e, hrun, hrecoverable⟩)
      · exact .inr (.inr ⟨List.forall_mem_cons.mpr ⟨hmissing, hnone⟩, hrun⟩)

theorem fetch_of_select {releases : List Json} {channel : UpdateChannel}
    (single : Except UpdaterError (ReleaseManifest V)) (h : channel ≠ .stable) {best : Listed}
    (hbest : selectReleaseForChannel remote releases.zipIdx channel = some best) :
    fetchManifestForChannel remote channel single (some (.ok releases)) =
      tryCandidates remote none (candidatesFrom remote best releases.zipIdx) := by
  unfold fetchManifestForChannel
  rw [if_neg h]
  dsimp only
  rw [hbest]

/-- The release of the channel first, then all others. -/
theorem candidates_versioned {releases : List Json} {channel : UpdateChannel} {best : Listed} {v : V}
    (h : Best remote releases channel best v) :
    ∀ r ∈ candidatesFrom remote best releases.zipIdx, ∃ w, Offered remote releases r w := by
  refine List.forall_mem_cons.mpr ⟨⟨v, h.toOffered⟩, fun r hr => ?_⟩
  exact (((descending_candidates releases best).mem r).mp hr).1

/-- What is offered is a candidate. -/
theorem mem_candidates {releases : List Json} {best r : Listed} {v w : V}
    (hbest : Offered remote releases best w) (h : Offered remote releases r v) :
    r = best ∨ r ∈ (releasesSortedByVersionDesc remote releases.zipIdx).filter fun r =>
      r.2 != best.2 := by
  by_cases hplace : r.2 = best.2
  · have hr := List.mem_zipIdx_iff_getElem?.mp h.mem
    have hr' := List.mem_zipIdx_iff_getElem?.mp hbest.mem
    rw [← hplace] at hr'
    exact .inl (Prod.ext (Option.some.inj (hr.symm.trans hr')) hplace)
  · exact .inr (((descending_candidates releases best).mem r).mpr ⟨⟨v, h⟩, hplace⟩)

/-- With all channels the first complete candidate has the highest version of those. -/
theorem first_complete_highest {releases : List Json} {best r : Listed} {v : V}
    (hbest : Best remote releases .all best v) {before after : List Listed}
    (hsplit : candidatesFrom remote best releases.zipIdx = before ++ r :: after)
    (hbefore : ∀ x ∈ before, ¬Complete remote x.1) {w : V} (hr : Offered remote releases r w)
    {r' : Listed} {w' : V} (hr' : Offered remote releases r' w') (hcomplete : Complete remote r'.1) :
    w' ≤ w := by
  have hmem : r' ∈ before ++ r :: after :=
    hsplit ▸ List.mem_cons.mpr (mem_candidates hbest.toOffered hr')
  rcases List.mem_append.mp hmem with hearlier | hlater
  · exact absurd hcomplete (hbefore r' hearlier)
  rcases List.mem_cons.mp hlater with rfl | hafter
  · exact (Option.some.inj (hr.version.symm.trans hr'.version)).ge
  cases before with
  | nil =>
    obtain ⟨rfl, _⟩ := List.cons.inj hsplit
    cases hr.version.symm.trans hbest.version
    rcases hbest.highest r' w' hr' rfl with hlt | ⟨heq, _⟩
    · exact hlt.le
    · exact heq.le
  | cons first before =>
    obtain ⟨rfl, hrest⟩ := List.cons.inj hsplit
    have hsorted := (@descending_candidates _ remote _ releases best).sorted
    rw [hrest] at hsorted
    have hpair := (List.pairwise_cons.mp (List.pairwise_append.mp hsorted).2.1).1 r' hafter w w'
      hr.version hr'.version
    rcases hpair with hlt | ⟨heq, _⟩
    · exact hlt.le
    · exact heq.le

/-- The first complete release is taken of the channel's best one and then all others from the
    highest version down; with all channels it has the highest version of the complete ones. -/
theorem release_selection (remote : Remote V) (releases : List Json) (channel : UpdateChannel)
    (single : Except UpdaterError (ReleaseManifest V)) (h : channel ≠ .stable) :
    (∀ best v, Best remote releases channel best v → ∃ rest, Descending remote releases best rest ∧
      ((∃ before r after m, best :: rest = before ++ r :: after ∧
          (∀ x ∈ before, ¬Complete remote x.1) ∧ Complete remote r.1 ∧ isDraft r.1 = false ∧
          manifestFromGithubRelease remote r.1 = .ok m ∧
          fetchManifestForChannel remote channel single (some (.ok releases)) = .ok m) ∨
        (∀ x ∈ best :: rest, ¬Complete remote x.1) ∧ ∃ e,
          fetchManifestForChannel remote channel single (some (.ok releases)) = .error e)) ∧
    ((∀ best v, ¬Best remote releases channel best v) →
      fetchManifestForChannel remote channel single (some (.ok releases)) =
        if channel = .prerelease then single else .error .noMatchingRelease) ∧
    (channel = .all → ∀ m,
      fetchManifestForChannel remote channel single (some (.ok releases)) = .ok m →
      (∃ r, Offered remote releases r m.version ∧ Complete remote r.1) ∧
      ∀ r v, Offered remote releases r v → Complete remote r.1 → v ≤ m.version) := by
  cases hselect : selectReleaseForChannel remote releases.zipIdx channel with
  | none =>
    have hnone := select_none hselect
    have hresult : fetchManifestForChannel remote channel single (some (.ok releases)) =
        if channel = .prerelease then single else .error .noMatchingRelease := by
      unfold fetchManifestForChannel
      rw [if_neg h]
      dsimp only
      rw [hselect]
    refine ⟨fun best v hbest => ?_, fun _ => hresult, fun hall m hm => ?_⟩
    · have hout := hnone best v hbest.toOffered
      rw [hbest.own] at hout
      cases hout
    · rw [hresult, hall] at hm
      cases hm
  | some best =>
    obtain ⟨v, hbest⟩ := select_best hselect
    rw [fetch_of_select single h hselect]
    have hcases := @tryCandidates_cases _ remote (candidatesFrom remote best releases.zipIdx)
      none fun r hr => (candidates_versioned hbest r hr).imp fun _ ho => ho.version
    refine ⟨fun best' v' hbest' => ?_, fun hno => absurd hbest (hno best v), ?_⟩
    · cases best_unique hbest hbest'
      refine ⟨_, descending_candidates releases best, ?_⟩
      rcases hcases with ⟨before, r, after, m, hsplit, hbefore, hcomplete, hm, hrun⟩ |
        ⟨hnone, hrun⟩ | ⟨hnone, e, hrun, _⟩
      · obtain ⟨w, ho⟩ := candidates_versioned hbest r (by rw [hsplit]; simp)
        exact .inl ⟨before, r, after, m, hsplit, hbefore, hcomplete, ho.published, hm, hrun⟩
      · exact .inr ⟨hnone, _, hrun⟩
      · exact .inr ⟨hnone, e, hrun⟩
    · rintro rfl m hm
      rcases hcases with ⟨before, r, after, m', hsplit, hbefore, hcomplete, hmanifest, hrun⟩ |
        ⟨_, hrun⟩ | ⟨_, e, hrun, _⟩
      · cases hrun.symm.trans hm
        obtain ⟨w, ho⟩ := candidates_versioned hbest r (by rw [hsplit]; simp)
        have hversion : m.version = w := by
          rcases manifest_cases ho.version with ⟨_, m', hm', hw⟩ | ⟨_, e, he, _⟩
          · cases hm'.symm.trans hmanifest
            exact hw
          · cases he.symm.trans hmanifest
        rw [hversion]
        exact ⟨⟨r, ho, hcomplete⟩, fun r' w' ho' hcomplete' =>
          first_complete_highest hbest hsplit hbefore ho ho' hcomplete'⟩
      · cases hrun.symm.trans hm
      · cases hrun.symm.trans hm

end

/-! ## A list -/

/-- Versions of three numbers below 1000. -/
def threeParts (text : Text) : Option Nat :=
  match (text.splitOn '.').map (parseUnsigned 1000) with
  | [some major, some minor, some patch] => some (major * 1000000 + minor * 1000 + patch)
  | _ => none

def localRemote : Remote Nat where
  parseVersion := threeParts
  lower text := text.map Char.toLower
  text url := if url = "http://127.0.0.1/sum".toList then some "a0123  app-linux-x64.zip".toList else none
  platformKey := "linux-x64".toList

def sampleAssets : Json := .arr [
  .obj [("name", .str "app-linux-x64.zip"), ("browser_download_url", .str "http://127.0.0.1/app")],
  .obj [("name", .str "app-linux-x64.zip.sha256"),
    ("browser_download_url", .str "http://127.0.0.1/sum")]]

/-- A beta without a package, a release and an older beta with one. -/
def sampleReleases : List Json := [
  .obj [("tag_name", .str "v2.0.0"), ("prerelease", .bool true)],
  .obj [("tag_name", .str "v1.9.0"), ("assets", sampleAssets)],
  .obj [("tag_name", .str "v1.0.0"), ("prerelease", .bool true), ("assets", sampleAssets)]]

/-- With all channels what is taken of the list is the highest of the complete ones. -/
theorem release_selection_sample : UpdateChannel.all ≠ .stable ∧
    ∀ m, fetchManifestForChannel localRemote .all (.error .manifestFetchFailed)
        (some (.ok sampleReleases)) = .ok m →
      ∀ r v, Offered localRemote sampleReleases r v → Complete localRemote r.1 → v ≤ m.version :=
  ⟨by decide, fun m hm => ((release_selection localRemote sampleReleases .all
    (.error .manifestFetchFailed) (by decide)).2.2 rfl m hm).2⟩

/-- Only the older beta is complete in its channel, but the release is taken. -/
theorem other_channel_taken :
    (∀ r ∈ sampleReleases.zipIdx, inChannel .prerelease r.1 = true →
      (Complete localRemote r.1 ↔ releaseVersion localRemote r.1 = some 1000000)) ∧
    ∀ single, ∃ m,
      fetchManifestForChannel localRemote .prerelease single (some (.ok sampleReleases)) = .ok m ∧
        m.version = 1009000 := by
  constructor
  · intro r hr hin
    have hbeta : r = (sampleReleases[0], 0) ∨ r = (sampleReleases[2], 2) := by
      simp only [sampleReleases, List.zipIdx_cons, List.zipIdx_nil, List.mem_cons] at hr
      rcases hr with rfl | rfl | rfl | hr
      · exact .inl rfl
      · cases hin
      · exact .inr rfl
      · cases hr
    rcases hbeta with rfl | rfl
    · refine iff_of_false ?_ (by decide +kernel)
      rintro ⟨_, _, _, hasset, _⟩
      cases hasset
    · exact iff_of_true ⟨_, _, _, rfl, by decide +kernel⟩ (by decide +kernel)
  · intro single
    have hselect : selectReleaseForChannel localRemote sampleReleases.zipIdx .prerelease =
        some (sampleReleases[0], 0) := rfl
    have hsorted : releasesSortedByVersionDesc localRemote sampleReleases.zipIdx =
        sampleReleases.zipIdx := by
      unfold releasesSortedByVersionDesc
      rw [sortByKey_of_pairwise]
      · rfl
      · exact .cons (by decide +kernel) (.cons (by decide +kernel) (.cons (by decide +kernel) .nil))
    rw [fetch_of_select single (by decide) hselect, candidatesFrom, hsorted]
    exact ⟨_, rfl, rfl⟩

end CampusAuth.Update
