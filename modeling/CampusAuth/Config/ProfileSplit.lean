import Mathlib.Logic.Function.Basic
import CampusAuth.Config.ProfileId
import CampusAuth.Lib.Json
import CampusAuth.Lib.Text

/- The migration of the settings from v5 to v6 (`config/migration.rs`, `migrate_v5_to_v6`): the
   profiles of the document go to files of their own, the global fields get their new names.

   A profile is written over whatever file has its id. One whose id is not a file name is
   skipped, to be kept in the document; the whole map then leaves the document
   (`migrateV5ToV6_value`), so such a profile is kept only if its file already held it
   (`profiles_kept_iff`). File names are compared as they are written. -/
namespace CampusAuth.Config
open Lib

/-! ## Fields -/

/-- The field `old` becomes `new`; it is dropped when `new` is there already. -/
def renameField (j : Json) (old new : String) : Json :=
  match j.get old with
  | none => j
  | some v =>
    let rest := j.remove old
    if (rest.get new).isSome then rest else rest.insert new v

/-- The profile as its file holds it. -/
def renameProfile (id : String) (profile : Json) : Json :=
  let profile := renameField profile "carrier" "isp"
  let profile := renameField profile "match_gateway_ip" "gateway_ip"
  let profile := renameField profile "match_ssid" "wifi_ssid"
  (profile.remove "carrier_custom").insert "id" (.str id)

/-- One entry `url|expected` of v5, or a plain `url`. -/
def addUrlCheck (acc : List Json × List (String × Json)) (item : Json) :
    List Json × List (String × Json) :=
  match item.asStr with
  | none => acc
  | some raw =>
    match splitOnce '|' raw.toList with
    | some (url, response) =>
      let url := String.ofList (strip url)
      if url.toList.isEmpty then acc
      else (acc.1 ++ [.str url], setMember acc.2 url (.str (String.ofList (strip response))))
    | none =>
      let url := trim raw
      if url.toList.isEmpty then acc else (acc.1 ++ [.str url], acc.2)

def splitUrlChecks (monitor : Json) : Json :=
  match monitor.get "url_check_urls" with
  | some (.arr items) =>
    let (targets, expected) := items.foldl addUrlCheck ([], [])
    let monitor := (monitor.remove "url_check_urls").insert "url_targets" (.arr targets)
    let monitor := monitor.insert "url_expected_responses" (.obj expected)
    monitor.insert "url_enabled" (.bool !targets.isEmpty)
  | _ => monitor.remove "url_check_urls"

def removeAll (j : Json) (names : List String) : Json := names.foldl (fun j name => j.remove name) j

def migrateMonitor (monitor : Json) : Json :=
  let monitor := renameField monitor "check_interval_seconds" "check_interval"
  let monitor := renameField monitor "enable_tcp_check" "tcp_enabled"
  let monitor := renameField monitor "enable_http_check" "http_enabled"
  let monitor := renameField monitor "enable_local_check" "local_check_enabled"
  let monitor := renameField monitor "ping_targets" "tcp_targets"
  let monitor := renameField monitor "test_urls" "http_targets"
  removeAll (splitUrlChecks monitor)
    ["access_log", "block_proxy", "network_check_timeout", "check_auth_url", "auth_url_targets"]

def migrateApp (app : Json) : Json :=
  let app := renameField app "app_port" "port"
  let app := renameField app "auto_open_browser" "auto_start_browser"
  removeAll app ["shell_path", "lightweight_tray", "minimize_to_tray", "proxy"]

def migrateGlobal (global : Json) : Json :=
  let global := global.update "monitor" migrateMonitor
  let global := global.update "logging" (renameField · "log_retention_days" "retention_days")
  global.update "app" migrateApp

/-! ## The migration -/

/-- How the operations on files come out, with the reason of a failure, and why a document is
    not one of the current schema. -/
structure SplitIo where
  /-- The directory of the backup. -/
  backup : Option String
  createDir : Option Text := none
  write : String → Option Text := fun _ => none
  schema : Json → Option Text := fun _ => none
  removeBackup : Bool := true

inductive MigrationError where
  | io (reason : Text)
  | configParseError (path reason : Text) (backupPath : Option String)

/-- The configuration directory: the document, the profile files by their names, the backup. -/
structure SplitDir where
  value : Json
  profiles : String → Option Json
  backup : Option String

/-- Where the loop over the profiles ends: the members as it leaves them, the files, the ids
    it skipped, and why a file could not be written. -/
structure Split where
  members : List (String × Json)
  profiles : String → Option Json
  skipped : List String
  failed : Option Text

def splitProfiles (io : SplitIo) : List (String × Json) → (String → Option Json) → Split
  | [], profiles => ⟨[], profiles, [], none⟩
  | (id, profile) :: rest, profiles =>
    if !isValidProfileId id then
      let split := splitProfiles io rest profiles
      { split with members := (id, profile) :: split.members, skipped := id :: split.skipped }
    else
      let profile := renameProfile id profile
      match io.write id with
      | some reason => ⟨(id, profile) :: rest, profiles, [], some reason⟩
      | none =>
        let split := splitProfiles io rest (Function.update profiles id (some profile))
        { split with members := (id, profile) :: split.members }

/-- The active profile is the default one when it was skipped. -/
def fallBack (skipped : List String) (value : Json) : Json :=
  let active := ((value.get "active_profile_id").bind Json.asStr).getD "default"
  if skipped.contains active then value.insert "active_profile_id" (.str "default") else value

/-- The document without the profiles, as version 6. -/
def v6Document (value : Json) : Json :=
  ((value.update "global" migrateGlobal).remove "profiles").insert "config_version" (.number "6")

/-- The steps behind the loop over the profiles: the backup stays when the document is not one
    of the current schema. -/
def finishSplit (io : SplitIo) (configDir : Text) (value : Json) (profiles : String → Option Json) :
    SplitDir × Except MigrationError Unit :=
  let value := v6Document value
  match io.schema value with
  | some reason =>
    ({ value, profiles, backup := io.backup },
      .error (.configParseError configDir ("迁移产物无法解析为当前 schema: ".toList ++ reason) io.backup))
  | none => ({ value, profiles, backup := if io.removeBackup then none else io.backup }, .ok ())

def migrateV5ToV6 (io : SplitIo) (configDir : Text) (value : Json)
    (profiles : String → Option Json) : SplitDir × Except MigrationError Unit :=
  match value.get "profiles" with
  | some (.obj members) =>
    match io.createDir with
    | some reason => ({ value, profiles, backup := io.backup }, .error (.io reason))
    | none =>
      let split := splitProfiles io members profiles
      let value := value.insert "profiles" (.obj split.members)
      match split.failed with
      | some reason =>
        ({ value, profiles := split.profiles, backup := io.backup }, .error (.io reason))
      | none => finishSplit io configDir (fallBack split.skipped value) split.profiles
  | _ => finishSplit io configDir value profiles

/-! ## What becomes of the profiles -/

/-- The profiles of a document. -/
def profilesOf (value : Json) : List (String × Json) :=
  match value.get "profiles" with
  | some (.obj members) => members
  | _ => []

/-- The fields a profile's migration touches. -/
def profileFields : List String :=
  ["carrier", "isp", "match_gateway_ip", "gateway_ip", "match_ssid", "wifi_ssid", "carrier_custom",
    "id"]

theorem renameField_get (j : Json) {old new key : String} (hold : key ≠ old) (hnew : key ≠ new) :
    (renameField j old new).get key = j.get key := by
  have hrest : (j.remove old).get key = j.get key := by rw [Json.get_remove, if_neg hold]
  unfold renameField
  split
  · rfl
  · show Json.get key (if _ then _ else _) = _
    split
    · exact hrest
    · rw [Json.get_insert_ne _ _ hnew, hrest]

/-- Every other field of a profile is as it was. -/
theorem renameProfile_get (id : String) (profile : Json) {key : String} (h : key ∉ profileFields) :
    (renameProfile id profile).get key = profile.get key := by
  have hne : ∀ name ∈ profileFields, key ≠ name := fun name hname heq => h (heq ▸ hname)
  have hid : key ≠ "id" := hne _ (by decide)
  have hcustom : key ≠ "carrier_custom" := hne _ (by decide)
  show (Json.insert _ "id" _).get key = _
  rw [Json.get_insert_ne _ _ hid, Json.get_remove, if_neg hcustom,
    renameField_get _ (hne _ (by decide)) (hne _ (by decide)),
    renameField_get _ (hne _ (by decide)) (hne _ (by decide)),
    renameField_get _ (hne _ (by decide)) (hne _ (by decide))]

section
variable {io : SplitIo} {members : List (String × Json)} {profiles : String → Option Json}

/-- The loop writes to no other file than those of its profiles, and to none whose id is not a
    file name. -/
theorem splitProfiles_other {id : String}
    (h : id ∉ members.map Prod.fst ∨ isValidProfileId id = false) :
    (splitProfiles io members profiles).profiles id = profiles id := by
  induction members generalizing profiles with
  | nil => rfl
  | cons entry rest ih =>
    obtain ⟨first, profile⟩ := entry
    have hrest : id ∉ rest.map Prod.fst ∨ isValidProfileId id = false :=
      h.imp_left fun hnot hmem => hnot (List.mem_cons_of_mem _ hmem)
    unfold splitProfiles
    split
    · exact ih hrest
    next hvalid =>
      have hne : id ≠ first := by
        rintro rfl
        rcases h with hnot | hinvalid
        · exact hnot List.mem_cons_self
        · rw [hinvalid] at hvalid
          exact hvalid rfl
      split
      · rfl
      · show (splitProfiles io rest _).profiles id = _
        rw [ih hrest, Function.update_of_ne hne]

/-- A profile whose id is a file name is in its file when the loop has run to its end. -/
theorem splitProfiles_written (hkeys : (members.map Prod.fst).Nodup)
    (hdone : (splitProfiles io members profiles).failed = none) {id : String} {profile : Json}
    (hmem : (id, profile) ∈ members) (hvalid : isValidProfileId id = true) :
    (splitProfiles io members profiles).profiles id = some (renameProfile id profile) := by
  induction members generalizing profiles with
  | nil => cases hmem
  | cons entry rest ih =>
    obtain ⟨first, firstProfile⟩ := entry
    obtain ⟨hnot, hkeys⟩ := List.nodup_cons.mp hkeys
    unfold splitProfiles at hdone ⊢
    split at hdone
    next hinvalid =>
      rw [if_pos hinvalid]
      refine ih hkeys hdone ((List.mem_cons.mp hmem).resolve_left fun heq => ?_)
      cases heq
      rw [hvalid] at hinvalid
      cases hinvalid
    next hfirst =>
      rw [if_neg hfirst]
      simp only at hdone ⊢
      split at hdone
      · cases hdone
      next hwrite =>
        show (splitProfiles io rest _).profiles id = _
        rcases List.mem_cons.mp hmem with heq | hrest
        · cases heq
          rw [splitProfiles_other (.inl hnot), Function.update_self]
        · exact ih hkeys hdone hrest

theorem v6Document_profiles (value : Json) : profilesOf (v6Document value) = [] := by
  have hnone : (v6Document value).get "profiles" = none := by
    show (Json.insert _ "config_version" _).get "profiles" = none
    rw [Json.get_insert_ne _ _ (by decide), Json.get_remove, if_pos rfl]
  unfold profilesOf
  rw [hnone]

/-- A migration that ends well leaves no profile in the document and the files as the loop over
    the profiles leaves them. -/
theorem migrateV5ToV6_ok {configDir : Text} {value : Json}
    (hok : (migrateV5ToV6 io configDir value profiles).2 = .ok ()) :
    profilesOf (migrateV5ToV6 io configDir value profiles).1.value = [] ∧
      (migrateV5ToV6 io configDir value profiles).1.profiles =
        (splitProfiles io (profilesOf value) profiles).profiles ∧
      (splitProfiles io (profilesOf value) profiles).failed = none := by
  have hfinish : ∀ value profiles,
      profilesOf (finishSplit io configDir value profiles).1.value = [] ∧
        (finishSplit io configDir value profiles).1.profiles = profiles := by
    intro value profiles
    unfold finishSplit
    simp only
    split
    · exact ⟨v6Document_profiles value, rfl⟩
    · exact ⟨v6Document_profiles value, rfl⟩
  unfold migrateV5ToV6 profilesOf at *
  cases hvalue : value.get "profiles" with
  | none => exact ⟨(hfinish _ _).1, (hfinish _ _).2, rfl⟩
  | some map =>
    cases map with
    | obj members =>
      simp only [hvalue] at hok ⊢
      split at hok
      · cases hok
      next hdir =>
        split at hok
        · cases hok
        next hfailed => exact ⟨(hfinish _ _).1, (hfinish _ _).2, hfailed⟩
    | null | bool | number | str | arr => exact ⟨(hfinish _ _).1, (hfinish _ _).2, rfl⟩

/-- No profile is lost: each one of the old document is in its own file or still in the
    document. -/
def KeepsProfiles (value : Json) (after : SplitDir) : Prop :=
  ∀ id profile, (id, profile) ∈ profilesOf value →
    after.profiles id = some (renameProfile id profile) ∨ (id, profile) ∈ profilesOf after.value

/-- **No profile is lost** by a migration that ends well, if and only if every profile's id is a
    file name, or its file held the profile already. -/
theorem profiles_kept_iff {configDir : Text} {value : Json}
    (hkeys : ((profilesOf value).map Prod.fst).Nodup)
    (hok : (migrateV5ToV6 io configDir value profiles).2 = .ok ()) :
    KeepsProfiles value (migrateV5ToV6 io configDir value profiles).1 ↔
      ∀ id profile, (id, profile) ∈ profilesOf value →
        isValidProfileId id = true ∨ profiles id = some (renameProfile id profile) := by
  obtain ⟨hvalue, hfiles, hdone⟩ := migrateV5ToV6_ok hok
  constructor
  · intro hkept id profile hmem
    cases hvalid : isValidProfileId id with
    | true => exact .inl rfl
    | false =>
      -- the document has no profiles any more and the loop has not touched the file
      rcases hkept id profile hmem with hfile | hdocument
      · rw [hfiles, splitProfiles_other (.inr hvalid)] at hfile
        exact .inr hfile
      · rw [hvalue] at hdocument
        cases hdocument
  · intro hcond id profile hmem
    left
    rw [hfiles]
    cases hvalid : isValidProfileId id with
    | true => exact splitProfiles_written hkeys hdone hmem hvalid
    | false =>
      rw [splitProfiles_other (.inr hvalid)]
      refine (hcond id profile hmem).resolve_left ?_
      rw [hvalid]
      exact Bool.false_ne_true

end

/-- A document of v5 with one profile. -/
def v5Document (id : String) : Json :=
  .obj [("config_version", .number "5"), ("profiles", .obj [(id, .obj [("carrier", .str "cmcc")])])]

theorem profiles_kept_sample :
    KeepsProfiles (v5Document "dorm")
      (migrateV5ToV6 { backup := none } [] (v5Document "dorm")
        fun _ => none).1 := by
  refine (profiles_kept_iff (by decide) rfl).mpr fun id profile hmem => .inl ?_
  have heq : (id, profile) = ("dorm", .obj [("carrier", .str "cmcc")]) := List.mem_singleton.mp hmem
  cases heq
  decide

/-- A profile with a dot in its id is skipped and then dropped with the map. -/
theorem dotted_profile_lost :
    ¬∀ (io : SplitIo) (configDir : Text) (value : Json) (profiles : String → Option Json),
      ((profilesOf value).map Prod.fst).Nodup →
      (migrateV5ToV6 io configDir value profiles).2 = .ok () →
      KeepsProfiles value (migrateV5ToV6 io configDir value profiles).1 := by
  intro hall
  have hkept : KeepsProfiles (v5Document "my.dorm") _ :=
    hall { backup := none } [] (v5Document "my.dorm") (fun _ => none)
      (by decide) rfl
  rcases hkept "my.dorm" (.obj [("carrier", .str "cmcc")]) (List.mem_singleton.mpr rfl) with h | h
  · cases h
  · cases h

end CampusAuth.Config
