import CampusAuth.Web.SettingsPatch

/- What a `PATCH /api/config` can do to the next start.

   The flat request is checked for its port and its active profile, but what is no known name is
   merged into the top level of the stored document: `config_version` and the sections under
   `global` are reached without a check, and the check of the port looks at an object only.
   `patch_safe_iff` says which accepted requests leave a file that the next start takes as it
   is. -/
namespace CampusAuth.Web
open Lib Config
open Lib.Json (asStr asU64)

mutual

/-- The names in every object are different, as the parser leaves them. -/
def distinct : Json → Bool
  | .obj members => decide (members.map Prod.fst).Nodup && membersDistinct members
  | .arr items => itemsDistinct items
  | _ => true

def membersDistinct : List (String × Json) → Bool
  | [] => true
  | (_, v) :: members => distinct v && membersDistinct members

def itemsDistinct : List Json → Bool
  | [] => true
  | v :: items => distinct v && itemsDistinct items

end

/-- The member that the flat request has for the section `app`. -/
def flatApp (members : List (String × Json)) : Option Json :=
  (members.filter fun m => m.1 == "app" || m.1 == "app_settings").getLast?.map Prod.snd

/-- What the request has for the section `app`, under `global` or flat. -/
def givenApp (members : List (String × Json)) : Option Json :=
  match members.lookup "global" with
  | none => flatApp members
  | some (.obj globals) => (globals.lookup "app").or (flatApp members)
  | some j => Kind.member globalConfig "app" j

def GivesPortZero (members : List (String × Json)) : Prop :=
  ((givenApp members).bind (Kind.member appSettings "port")).bind asU64 = some 0

def KeepsVersion (members : List (String × Json)) : Prop :=
  ∀ v ∈ members.lookup "config_version", v.isNull = true ∨ v.asU64 = some currentConfigVersion

/-- The next start takes the file as it is, and gets the settings of the running process. -/
structure Startable (store : ConfigStore) : Prop where
  starts : ∃ s, loadOrInitSettings store.file = .loaded s ∧ s = store.settings
  version : (store.file.get "config_version").bind asU64 = some currentConfigVersion
  port : ∃ p, store.settings.port = some p ∧ 1 ≤ p ∧ p ≤ 65535
  profile : store.loads store.settings.activeProfileId = true

theorem membersDistinct_of_mem : ∀ {members : List (String × Json)}, membersDistinct members = true →
    ∀ m ∈ members, distinct m.2 = true
  | [], _, _, hm => nomatch hm
  | (_, _) :: _, h, _, hm => by
    rw [membersDistinct, Bool.and_eq_true] at h
    rcases List.mem_cons.mp hm with rfl | hm
    · exact h.1
    · exact membersDistinct_of_mem h.2 _ hm

theorem distinct_obj {members : List (String × Json)} (h : distinct (.obj members) = true) :
    (members.map Prod.fst).Nodup ∧ ∀ m ∈ members, distinct m.2 = true := by
  rw [distinct, Bool.and_eq_true, decide_eq_true_eq] at h
  exact ⟨h.1, membersDistinct_of_mem h.2⟩

/-! ## The sorted request -/

/-- The patches have one member for each name. -/
structure Sorted (patch : FlatPatch) : Prop where
  globals : (patch.globalPatch.map Prod.fst).Nodup
  others : (patch.otherPatch.map Prod.fst).Nodup

theorem Sorted.add {patch patch' : FlatPatch} {name : String} {v : Json} (h : Sorted patch)
    (hadd : patch.add name v = .ok patch') : Sorted patch' := by
  unfold FlatPatch.add at hadd
  split at hadd
  · cases hadd
    exact h
  split at hadd
  · cases hadd
    exact ⟨h.globals, h.others⟩
  split at hadd
  · split at hadd
    · cases hadd
      exact ⟨Json.nodup_setMember _ _ h.globals, h.others⟩
    · cases hadd
  split at hadd
  · cases hadd
    exact ⟨Json.nodup_setMember _ _ h.globals, h.others⟩
  · cases hadd
    exact ⟨h.globals, Json.nodup_setMember _ _ h.others⟩

theorem Sorted.all {patch patch' : FlatPatch} {members : List (String × Json)} (h : Sorted patch)
    (hsort : sortPatch patch members = .ok patch') : Sorted patch' := by
  induction members generalizing patch with
  | nil =>
    cases hsort
    exact h
  | cons m members ih =>
    unfold sortPatch at hsort
    split at hsort
    next hadd => exact ih (h.add hadd) hsort
    · cases hsort

/-- A name of no known field or section. -/
def Unknown (name : String) : Prop :=
  name ≠ "carrier_custom" ∧ profileKeys.contains name = false ∧ name ≠ "monitor" ∧
    globalKeys.contains name = false

instance (name : String) : Decidable (Unknown name) := inferInstanceAs (Decidable (_ ∧ _))

theorem add_other {patch patch' : FlatPatch} {name key : String} {v : Json} (hkey : Unknown key)
    (hadd : patch.add name v = .ok patch') :
    patch'.otherPatch.lookup key =
      if key = name then some v else patch.otherPatch.lookup key := by
  obtain ⟨hcustom, hprofile, hmonitor, hglobal⟩ := hkey
  unfold FlatPatch.add at hadd
  split at hadd
  next heq =>
    cases hadd
    rw [if_neg fun h => hcustom (h.trans heq)]
  split at hadd
  next heq =>
    cases hadd
    rw [if_neg fun h => by rw [h, heq] at hprofile; cases hprofile]
  split at hadd
  next heq =>
    rw [if_neg fun h => hmonitor (h.trans heq)]
    split at hadd <;> cases hadd
    rfl
  split at hadd
  next heq =>
    cases hadd
    rw [if_neg fun h => by rw [h, heq] at hglobal; cases hglobal]
  · cases hadd
    exact Json.lookup_setMember _ _ _ _

theorem lookup_other {patch patch' : FlatPatch} {members : List (String × Json)} {key : String}
    (hkey : Unknown key) (hnames : (members.map Prod.fst).Nodup)
    (hsort : sortPatch patch members = .ok patch') :
    patch'.otherPatch.lookup key = (members.lookup key).or (patch.otherPatch.lookup key) :=
  lookup_sortPatch FlatPatch.otherPatch (add_other hkey) hnames hsort

theorem fieldMap_app (name : String) :
    "app" = fieldMap name ↔ name = "app" ∨ name = "app_settings" := by
  unfold fieldMap
  rw [lookup_cons_ite, lookup_cons_ite]
  split
  next heq => simp [heq]
  · split
    next heq => simp [heq]
    next hne => simp [hne, eq_comm]

theorem add_app {patch patch' : FlatPatch} {name : String} {v : Json}
    (hadd : patch.add name v = .ok patch') : patch'.globalPatch.lookup "app" =
      if name = "app" ∨ name = "app_settings" then some v else patch.globalPatch.lookup "app" := by
  unfold FlatPatch.add at hadd
  split at hadd
  next heq =>
    cases hadd
    rw [heq, if_neg (by decide)]
  split at hadd
  next hprofile =>
    cases hadd
    rw [if_neg]
    rintro (rfl | rfl) <;> cases hprofile
  split at hadd
  next heq =>
    split at hadd
    · cases hadd
      rw [heq, if_neg (by decide), Json.lookup_setMember, if_neg (by decide)]
    · cases hadd
  split at hadd
  · cases hadd
    rw [Json.lookup_setMember]
    simp only [fieldMap_app]
  next hother =>
    cases hadd
    rw [if_neg]
    rintro (rfl | rfl) <;> exact hother (by decide)

theorem lookup_app {patch patch' : FlatPatch} {members : List (String × Json)}
    (hsort : sortPatch patch members = .ok patch') :
    patch'.globalPatch.lookup "app" = (flatApp members).or (patch.globalPatch.lookup "app") := by
  induction members generalizing patch with
  | nil =>
    cases hsort
    rfl
  | cons m members ih =>
    obtain ⟨name, v⟩ := m
    unfold sortPatch at hsort
    split at hsort
    next added hadd =>
      rw [ih hsort, add_app hadd]
      unfold flatApp
      rw [List.filter_cons]
      by_cases hname : name = "app" ∨ name = "app_settings"
      · rw [if_pos hname, if_pos (by simpa using hname), List.getLast?_cons]
        cases (members.filter fun m => m.1 == "app" || m.1 == "app_settings").getLast? <;> rfl
      · rw [if_neg hname, if_neg (by simpa using hname)]
    · cases hsort

/-! ## The port -/

theorem jsonMerge_plain {target : Json} (h : target.isObject = false) (v : Json) :
    jsonMerge target v = v := by
  cases v with
  | obj patch =>
    cases target with
    | obj members => cases h
    | null | bool | number | str | arr => rfl
  | null | bool | number | str | arr => rfl

theorem not_object_of_number {j : Json} {n : Nat} (h : j.asU64 = some n) :
    j.isObject = false ∧ j.isNull = false := by
  cases j with
  | number literal => exact ⟨rfl, rfl⟩
  | null | bool | str | arr | obj => cases h

def portOf (app : Json) : Option Json := Kind.member appSettings "port" app

/-- A zero, and not just nothing. -/
def Zero (o : Option Json) : Prop := o.bind asU64 = some 0

theorem not_zero {n : Nat} {j : Json} (h : j.asU64 = some n) (hn : n ≠ 0) : ¬Zero (some j) := by
  intro hzero
  exact hn (Option.some.inj (h.symm.trans hzero))

/-- The section `app` of valid settings: its port is a number that is not zero. -/
structure Valid (apps : List (String × Json)) : Prop where
  port : ∃ j n, apps.lookup "port" = some j ∧ j.asU64 = some n ∧ n ≠ 0

/-- An object that is merged into a valid section counts as it stands. -/
theorem zero_merged {apps a : List (String × Json)} (h : Valid apps) (ha : (a.map Prod.fst).Nodup) :
    Zero (portOf (.obj (mergeMembers apps a))) ↔ Zero (portOf (.obj a)) := by
  obtain ⟨j, n, hj, hn, hpos⟩ := h.port
  show Zero ((mergeMembers apps a).lookup "port") ↔ Zero (a.lookup "port")
  rw [lookup_mergeMembers _ _ ha, hj]
  cases a.lookup "port" with
  | none => exact iff_of_false (not_zero hn hpos) (by rintro ⟨⟩)
  | some v =>
    unfold merged
    dsimp only
    split
    next hnull =>
      cases v with
      | null => exact iff_of_false (by rintro ⟨⟩) (by rintro ⟨⟩)
      | bool | number | str | arr | obj => cases hnull
    · rw [Option.getD_some, jsonMerge_plain (not_object_of_number hn).1]

theorem Valid.merge {apps a : List (String × Json)} (h : Valid apps) (ha : (a.map Prod.fst).Nodup)
    (hport : ∀ v ∈ a.lookup "port", ∃ n, v.asU64 = some n ∧ n ≠ 0) :
    Valid (mergeMembers apps a) := by
  obtain ⟨j, n, hj, hn, hpos⟩ := h.port
  refine ⟨?_⟩
  rw [lookup_mergeMembers _ _ ha, hj]
  cases hv : a.lookup "port" with
  | none => exact ⟨j, n, rfl, hn, hpos⟩
  | some v =>
    obtain ⟨n', hn', hpos'⟩ := hport v hv
    refine ⟨v, n', ?_, hn', hpos'⟩
    unfold merged
    dsimp only
    rw [(not_object_of_number hn').2, Option.getD_some, jsonMerge_plain (not_object_of_number hn).1]
    rfl

/-- The section after the flat part of the request: an object with a valid port, or the flat
    value itself, which is no object. -/
theorem flat_cases {apps : List (String × Json)} {flat : Option Json} (h : Valid apps)
    (hflat : ∀ a, flat = some (.obj a) → (a.map Prod.fst).Nodup ∧
      ∀ v ∈ a.lookup "port", ∃ n, v.asU64 = some n ∧ n ≠ 0) :
    (Zero ((merged (some (.obj apps)) flat).bind portOf) ↔ Zero (flat.bind portOf)) ∧
    ((∃ valid, merged (some (.obj apps)) flat = some (.obj valid) ∧ Valid valid) ∨
      ∀ j ∈ merged (some (.obj apps)) flat, j.isObject = false) := by
  cases flat with
  | none =>
    obtain ⟨j, n, hj, hn, hpos⟩ := h.port
    refine ⟨iff_of_false ?_ (by rintro ⟨⟩), .inl ⟨apps, rfl, h⟩⟩
    show ¬Zero (apps.lookup "port")
    rw [hj]
    exact not_zero hn hpos
  | some v =>
    cases v with
    | null => exact ⟨iff_of_false (by rintro ⟨⟩) (by rintro ⟨⟩), .inr nofun⟩
    | obj a =>
      obtain ⟨ha, hport⟩ := hflat a rfl
      exact ⟨zero_merged h ha, .inl ⟨_, rfl, h.merge ha hport⟩⟩
    | bool | number | str | arr =>
      exact ⟨Iff.rfl, .inr fun j hj => by cases hj; rfl⟩

/-- The port after the part of the request under `global`. -/
theorem zero_given {globals : List (String × Json)} {members : List (String × Json)}
    {merge : Option Json} (hmerge : globals.lookup "app" = merge)
    (hflat : (Zero (merge.bind portOf) ↔ Zero ((flatApp members).bind portOf)) ∧
      ((∃ valid, merge = some (.obj valid) ∧ Valid valid) ∨ ∀ j ∈ merge, j.isObject = false))
    (hdistinct : distinct (.obj members) = true) :
    Zero (((merged (some (.obj globals)) (members.lookup "global")).bind
      (Kind.member globalConfig "app")).bind portOf) ↔ Zero ((givenApp members).bind portOf) := by
  unfold givenApp
  cases hglobal : members.lookup "global" with
  | none =>
    show Zero ((globals.lookup "app").bind portOf) ↔ _
    rw [hmerge]
    exact hflat.1
  | some g =>
    cases g with
    | null => exact iff_of_false (by rintro ⟨⟩) (by rintro ⟨⟩)
    | bool | number | str | arr => exact Iff.rfl
    | obj patch =>
      show Zero (((mergeMembers globals patch).lookup "app").bind portOf) ↔
        Zero (((patch.lookup "app").or (flatApp members)).bind portOf)
      obtain ⟨hnames, hmembers⟩ := distinct_obj
        ((distinct_obj hdistinct).2 _ (mem_of_lookup hglobal))
      rw [lookup_mergeMembers _ _ hnames, hmerge]
      cases happ : patch.lookup "app" with
      | none => exact hflat.1
      | some v =>
        cases v with
        | null => exact iff_of_false (by rintro ⟨⟩) (by rintro ⟨⟩)
        | bool | number | str | arr => exact Iff.rfl
        | obj a =>
          have ha := (distinct_obj (hmembers _ (mem_of_lookup happ))).1
          show Zero (portOf (jsonMerge (merge.getD .null) (.obj a))) ↔ Zero (portOf (.obj a))
          rcases hflat.2 with ⟨valid, hvalid, hport⟩ | hplain
          · rw [hvalid]
            exact zero_merged hport ha
          · have hobject : (merge.getD .null).isObject = false := by
              cases merge with
              | none => rfl
              | some j => exact hplain j rfl
            rw [jsonMerge_plain hobject]

variable {s t : SettingsData} {vs globals : List (String × Json)}

theorem valid_of_port (hs : Opened s vs globals) {p : Nat} (hport : s.port = some p) (hp : p ≠ 0) :
    ∃ apps, globals.lookup "app" = some (.obj apps) ∧ Valid apps := by
  obtain ⟨app, happ, hread⟩ := hs.globalFields.field "app" (.struct appSettings) rfl
  obtain ⟨apps, rfl, hfields⟩ := Kind.hasFields_of_read hread
  obtain ⟨j, hj, -⟩ := hfields.field "port" (.uint UInt16.size 50721) rfl
  refine ⟨apps, happ, ⟨j, p, hj, ?_, hp⟩⟩
  unfold SettingsData.port SettingsData.globalSection at hport
  rw [hs.value] at hport
  change (((vs.lookup "global").bind (·.get "app")).bind (·.get "port")).bind asU64 = some p at hport
  rw [hs.global] at hport
  change ((globals.lookup "app").bind (·.get "port")).bind asU64 = some p at hport
  rw [happ] at hport
  change (apps.lookup "port").bind asU64 = some p at hport
  rw [hj] at hport
  exact hport

/-- The port of settings whose global section is read from `o`. -/
theorem port_of_read {o : Option Json} (ht : Opened t vs globals)
    (hread : (Kind.struct globalConfig).readFrom o = some (.obj globals)) :
    ∃ n, t.port = some n ∧ n < UInt16.size ∧
      (n = 0 ↔ Zero ((o.bind (Kind.member globalConfig "app")).bind portOf)) := by
  obtain ⟨app, happ, happread⟩ := ht.globalFields.field "app" (.struct appSettings) rfl
  obtain ⟨apps, rfl, hfields⟩ := Kind.hasFields_of_read happread
  obtain ⟨j, hj, -⟩ := hfields.field "port" (.uint UInt16.size 50721) rfl
  have hfrom : (Kind.struct appSettings).readFrom (o.bind (Kind.member globalConfig "app")) =
      some (.obj apps) := (Kind.get_of_readFrom hread rfl).symm.trans happ
  have hfield : appSettings.lookup "port" = some (.uint UInt16.size 50721) := rfl
  have hport := (Kind.get_of_readFrom hfrom hfield).symm.trans hj
  obtain ⟨n, hn, hlt, hnone, hsome⟩ := Kind.uint_readFrom (by decide) hport
  refine ⟨n, ?_, hlt, ?_⟩
  · unfold SettingsData.port SettingsData.globalSection
    rw [ht.value]
    show (((vs.lookup "global").bind (·.get "app")).bind (·.get "port")).bind asU64 = some n
    rw [ht.global]
    show ((globals.lookup "app").bind (·.get "port")).bind asU64 = some n
    rw [happ]
    show (apps.lookup "port").bind asU64 = some n
    rw [hj]
    exact hn
  · show n = 0 ↔ Zero ((o.bind (Kind.member globalConfig "app")).bind (Kind.member appSettings "port"))
    cases hgiven : (o.bind (Kind.member globalConfig "app")).bind (Kind.member appSettings "port") with
    | none =>
      rw [hnone hgiven]
      exact iff_of_false (by decide) (by rintro ⟨⟩)
    | some x =>
      show n = 0 ↔ x.asU64 = some 0
      rw [hsome x hgiven, Option.some.injEq]

/-! ## The version and the profile -/

/-- The settings that were loaded have the version of the file. -/
theorem stored_version {file : Json} (hs : Opened s vs globals)
    (hread : (Kind.struct settingsData).read file = some s.value)
    (hversion : (file.get "config_version").bind asU64 = some currentConfigVersion) :
    ∃ j, vs.lookup "config_version" = some j ∧ j.asU64 = some currentConfigVersion := by
  obtain ⟨j, hj, -⟩ := hs.fields.field "config_version" _ rfl
  cases file with
  | obj members =>
    have hfield : settingsData.lookup "config_version" =
      some (.uint UInt32.size currentConfigVersion) := rfl
    have hget := Kind.get_of_readFrom (o := some (.obj members)) hread hfield
    rw [hs.value] at hget
    obtain ⟨n, hn, -, -, hsome⟩ := Kind.uint_readFrom (by decide) (hget.symm.trans hj)
    obtain ⟨x, hx, hxversion⟩ := Option.bind_eq_some_iff.mp hversion
    rw [hsome x hx] at hxversion
    cases hxversion
    exact ⟨j, hj, hn⟩
  | null | bool | number | str | arr => cases hversion

theorem version_of_read {old new : Option Json} {v j : Json} (hold : old = some j)
    (hj : j.asU64 = some currentConfigVersion)
    (hread : (Kind.uint UInt32.size currentConfigVersion).readFrom (merged old new) = some v) :
    v.asU64 = some currentConfigVersion ↔
      ∀ x ∈ new, x.isNull = true ∨ x.asU64 = some currentConfigVersion := by
  obtain ⟨n, hn, -, hnone, hsome⟩ := Kind.uint_readFrom (by decide) hread
  rw [hn, Option.some.injEq]
  cases new with
  | none =>
    rw [hsome j hold] at hj
    exact iff_of_true (Option.some.inj hj) nofun
  | some x =>
    unfold merged at hnone hsome
    dsimp only at hnone hsome
    cases hnull : x.isNull with
    | true =>
      rw [if_pos hnull] at hnone
      exact iff_of_true (hnone rfl) fun y hy => by cases hy; exact .inl hnull
    | false =>
      rw [hnull, hold, Option.getD_some, jsonMerge_plain (not_object_of_number hj).1] at hsome
      have hx := hsome x rfl
      constructor
      · rintro rfl y hy
        cases hy
        exact .inr hx
      · intro h
        rcases h x rfl with htrue | hversion
        · rw [hnull] at htrue
          cases htrue
        · exact Option.some.inj (hx.symm.trans hversion)

/-- The start takes a file that holds settings, if their version is the current one. -/
theorem starts_iff (ht : Opened t vs globals) {j : Json} (hj : vs.lookup "config_version" = some j) :
    (∃ s, loadOrInitSettings t.value = .loaded s ∧ s = t) ∧
        (t.value.get "config_version").bind asU64 = some currentConfigVersion ↔
      j.asU64 = some currentConfigVersion := by
  have hget : (t.value.get "config_version").bind asU64 = j.asU64 := by
    rw [ht.value]
    show (vs.lookup "config_version").bind asU64 = _
    rw [hj]
    rfl
  rw [hget]
  refine ⟨fun h => h.2, fun h => ⟨⟨t, ?_, rfl⟩, h⟩⟩
  unfold loadOrInitSettings
  rw [hget, h, SettingsData.ofValue_value]
  rfl

theorem text_read {d : String} {j v : Json} (h : (Kind.text d).read j = some v) :
    v = j ∧ ∃ text, j = .str text := by
  rw [Kind.read] at h
  split at h
  · cases h
    cases j with
    | str text => exact ⟨rfl, text, rfl⟩
    | null | bool | number | arr | obj => contradiction
  · cases h

theorem activeProfileId_eq (hs : Opened s vs globals) {text : String}
    (h : vs.lookup "active_profile_id" = some (.str text)) : s.activeProfileId = text := by
  unfold SettingsData.activeProfileId Json.text
  rw [hs.value]
  show ((vs.lookup "active_profile_id").bind asStr).getD "" = text
  rw [h]
  rfl

/-- Whatever the request says, the active profile can be loaded afterwards. -/
theorem profile_kept {env : PatchEnv} {store u : ConfigStore}
    {members vs' globals' : List (String × Json)}
    {patch : FlatPatch} (hacc : Accepted env store u members patch)
    (hs : Opened store.settings vs globals) (ht : Opened u.settings vs' globals')
    (hloads : store.loads store.settings.activeProfileId = true)
    (hread : (Kind.text "default").readFrom (merged (vs.lookup "active_profile_id")
      (members.lookup "active_profile_id")) = vs'.lookup "active_profile_id") :
    u.loads u.settings.activeProfileId = true := by
  obtain ⟨old, hold, holdread⟩ := hs.fields.field "active_profile_id" (.text "default") rfl
  obtain ⟨-, id, rfl⟩ := text_read holdread
  obtain ⟨new, hnew, -⟩ := ht.fields.field "active_profile_id" (.text "default") rfl
  rw [hold, hnew] at hread
  cases hgiven : members.lookup "active_profile_id" with
  | none =>
    rw [hgiven] at hread
    change (Kind.text "default").read (.str id) = some new at hread
    obtain ⟨rfl, -⟩ := text_read hread
    rw [activeProfileId_eq ht hnew, hacc.loads, ← activeProfileId_eq hs hold]
    exact hloads
  | some v =>
    rw [hgiven] at hread
    cases hnull : v.isNull with
    | true =>
      unfold merged at hread
      dsimp only at hread
      rw [if_pos hnull] at hread
      cases hread
      have hreload := hacc.reloads
      unfold reload at hreload
      rw [activeProfileId_eq ht hnew] at hreload ⊢
      have hvalid : isValidProfileId "default" = true := by decide
      simp only [hvalid, if_true, Bool.or_self, Bool.and_eq_true] at hreload
      exact hreload.2
    | false =>
      unfold merged at hread
      dsimp only at hread
      rw [hnull, Option.getD_some, jsonMerge_plain rfl] at hread
      obtain ⟨rfl, id', rfl⟩ := text_read (d := "default") hread
      rw [activeProfileId_eq ht hnew, hacc.loads]
      have hactive := hacc.active
      unfold checkActiveProfileId at hactive
      rw [hgiven] at hactive
      change (if id' = "" then Except.error PatchError.emptyActiveProfileId
        else if store.loads id' then .ok () else .error (.noSuchProfile id')) = .ok () at hactive
      split at hactive
      · cases hactive
      split at hactive
      next hid => exact hid
      · cases hactive

/-! ## The next start -/

theorem flat_valid {env : PatchEnv} {store u : ConfigStore} {members : List (String × Json)}
    {patch : FlatPatch} (hacc : Accepted env store u members patch)
    (hdistinct : distinct (.obj members) = true)
    (happ : patch.globalPatch.lookup "app" = flatApp members) (a : List (String × Json))
    (ha : flatApp members = some (.obj a)) : (a.map Prod.fst).Nodup ∧
      ∀ v ∈ a.lookup "port", ∃ n, v.asU64 = some n ∧ n ≠ 0 := by
  constructor
  · obtain ⟨m, hm, hobj⟩ := Option.map_eq_some_iff.mp ha
    have hmem := (List.mem_filter.mp (List.mem_of_getLast? hm)).1
    have hd := (distinct_obj hdistinct).2 m hmem
    rw [hobj] at hd
    exact (distinct_obj hd).1
  · intro v hv
    have hport := hacc.port
    unfold checkPort at hport
    rw [happ, ha, show (some (Json.obj a)).bind (·.get "port") = a.lookup "port" from rfl,
      hv] at hport
    dsimp only at hport
    split at hport
    next hany =>
      obtain ⟨n, hn, hrange⟩ := (Option.any_eq_true _ _).mp hany
      rw [Bool.and_eq_true, decide_eq_true_eq] at hrange
      exact ⟨n, hn, by omega⟩
    · cases hport

/-- An accepted request leaves a file that the next start takes as it is exactly if it does not
    change the version and does not give the port zero past the check. -/
theorem patch_safe_iff (env : PatchEnv) (store t : ConfigStore) (members : List (String × Json))
    (hdistinct : distinct (.obj members) = true) (hstore : Startable store)
    (h : patchSettings env store (.obj members) = .ok t) :
    Startable t ↔ KeepsVersion members ∧ ¬GivesPortZero members := by
  obtain ⟨patch, hacc⟩ := accepted h
  have hnames := (distinct_obj hdistinct).1
  have hsorted : Sorted patch := Sorted.all (show Sorted {} from ⟨List.nodup_nil, List.nodup_nil⟩) hacc.sorted
  have hother : ∀ key, Unknown key → patch.otherPatch.lookup key = members.lookup key :=
    fun key hkey => (lookup_other hkey hnames hacc.sorted).trans (Option.or_none)
  have happ : patch.globalPatch.lookup "app" = flatApp members :=
    (lookup_app hacc.sorted).trans Option.or_none
  rcases hacc.settings with ⟨hg, ho, rfl⟩ | ⟨hmerge, hfile⟩
  · have hnone : ∀ key, Unknown key → members.lookup key = none := by
      intro key hkey
      rw [← hother key hkey, ho]
      rfl
    refine iff_of_true hstore ⟨?_, ?_⟩
    · intro v hv
      rw [hnone "config_version" (by decide)] at hv
      cases hv
    · rw [hg] at happ
      unfold GivesPortZero givenApp
      rw [hnone "global" (by decide), ← happ]
      rintro ⟨⟩
  · obtain ⟨vs, globals, hs⟩ := opened store.settings
    obtain ⟨vs', globals', ht⟩ := opened t.settings
    obtain ⟨_, hvalue, hlookup⟩ := lookup_mergeSettings hs hsorted.others hmerge
    cases ht.value.symm.trans hvalue
    obtain ⟨loaded, hloaded, rfl⟩ := hstore.starts
    obtain ⟨p, hp, hpos, -⟩ := hstore.port
    -- the version
    obtain ⟨old, hold, holdversion⟩ := stored_version hs (read_of_loaded hloaded) hstore.version
    obtain ⟨new, hnew, -⟩ := ht.fields.field "config_version" _ rfl
    have hversion := (hlookup "config_version").symm.trans hnew
    rw [hother "config_version" (by decide)] at hversion
    have hkeeps := version_of_read hold holdversion hversion
    -- the port
    obtain ⟨apps, happs, hvalid⟩ := valid_of_port hs hp (by omega)
    have hglobal := (hlookup "global").symm.trans ht.global
    rw [hother "global" (by decide)] at hglobal
    obtain ⟨n, hn, hlt, hzero⟩ := port_of_read ht hglobal
    have hmerged : (mergeMembers globals patch.globalPatch).lookup "app" =
        merged (some (.obj apps)) (flatApp members) := by
      rw [lookup_mergeMembers _ _ hsorted.globals, happs, happ]
    have hgiven := zero_given hmerged (flat_cases hvalid (flat_valid hacc hdistinct happ)) hdistinct
    have hnonzero : n ≠ 0 ↔ ¬GivesPortZero members := not_congr (hzero.trans hgiven)
    -- the profile
    have hprofile := profile_kept hacc hs ht hstore.profile
      (hother "active_profile_id" (by decide) ▸ (hlookup "active_profile_id").symm)
    have hstarts := starts_iff ht hnew
    rw [← hfile] at hstarts
    constructor
    · intro htart
      obtain ⟨q, hq, hqpos, -⟩ := htart.port
      cases hn.symm.trans hq
      exact ⟨hkeeps.mp (hstarts.mp ⟨htart.starts, htart.version⟩), hnonzero.mp (by omega)⟩
    · rintro ⟨hversion, hport⟩
      obtain ⟨hloads, hcurrent⟩ := hstarts.mpr (hkeeps.mpr hversion)
      have hpos := hnonzero.mpr hport
      have hbound : n < 65536 := hlt
      exact ⟨hloads, hcurrent, ⟨n, hn, by omega, by omega⟩, hprofile⟩

theorem startable_fresh : Startable freshStore where
  starts := ⟨.default, rfl, rfl⟩
  version := by decide +kernel
  port := ⟨50721, by decide +kernel, by decide, by decide⟩
  profile := by decide +kernel

/-- A port by way of `app` and a custom key: the checked form of the request. -/
def checkedPatch : List (String × Json) :=
  [("app", .obj [("port", .number "8080")]), ("unknown", .null)]

theorem patch_safe_iff_sample : ∃ t,
    patchSettings {} freshStore (.obj checkedPatch) = .ok t ∧ Startable t := by
  obtain ⟨t, ht⟩ : ∃ t, patchSettings {} freshStore (.obj checkedPatch) = .ok t :=
    exists_of_isOk (by decide +kernel)
  refine ⟨t, ht, (patch_safe_iff {} freshStore t checkedPatch (by decide) startable_fresh ht).mpr ?_⟩
  refine ⟨fun v hv => ?_, by unfold GivesPortZero; decide⟩
  cases hv

/-- The port under its stored name. -/
def nestedPatch : List (String × Json) :=
  [("global", .obj [("app", .obj [("port", .number "0")])])]

/-- The port zero is accepted under `global`. -/
theorem nested_port_is_accepted : ¬∀ (env : PatchEnv) (store t : ConfigStore)
    (members : List (String × Json)), distinct (.obj members) = true → Startable store →
    patchSettings env store (.obj members) = .ok t → Startable t := by
  intro h
  have hport : (patchSettings {} freshStore (.obj nestedPatch)).toOption.bind
      (fun t => t.settings.port) = some 0 := by decide +kernel
  cases hpatch : patchSettings {} freshStore (.obj nestedPatch) with
  | error e =>
    rw [hpatch] at hport
    cases hport
  | ok t =>
    rw [hpatch] at hport
    obtain ⟨p, hp, hpos, -⟩ := (h {} freshStore t nestedPatch (by decide) startable_fresh hpatch).port
    cases hp.symm.trans hport
    cases hpos

end CampusAuth.Web
