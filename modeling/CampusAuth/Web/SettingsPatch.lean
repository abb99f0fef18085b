import CampusAuth.Config.ProfileId
import CampusAuth.Config.Settings

/- `PATCH /api/config` (`web/routes/config.rs`).

   The members of the request are sorted into three patches: known sections of the settings,
   fields of the active profile, and everything else. The first is merged into the section
   `global` of the stored document and the last into its top level; what comes out is read as
   settings again and written. -/
namespace CampusAuth.Web
open Lib Config
open Lib.Json (asStr asU64)

/-! ## Merging -/

mutual

def jsonMerge (target : Json) : Json → Json
  | .obj patch =>
    match target with
    | .obj members => .obj (mergeMembers members patch)
    | _ => .obj patch
  | patch => patch

def mergeMembers (members : List (String × Json)) : List (String × Json) → List (String × Json)
  | [] => members
  | (name, v) :: patch =>
    mergeMembers
      (if v.isNull then removeMember members name
      else setMember members name (jsonMerge ((members.lookup name).getD .null) v)) patch

end

/-! ## The monitor section -/

structure MonitorPatch where
  checkIntervalSeconds : Option Nat
  pingTargets : Option (List String)
  testUrls : Option (List String)
  urlCheckUrls : Option (List String)
  enableTcpCheck : Option Bool
  enableHttpCheck : Option Bool
  enableUrlCheck : Option Bool
  enableLocalCheck : Option Bool
  strictLoginMode : Option Bool
  disableProxy : Option Bool
  networkCheckTimeout : Option Nat
  postLoginDelay : Option Nat
  checkAuthUrl : Option Bool
  authUrlTargets : Option (List String)
  scriptTimeout : Option Nat
  deriving DecidableEq

def monitorPatchFields : List String :=
  ["check_interval_seconds", "ping_targets", "test_urls", "url_check_urls", "enable_tcp_check",
   "enable_http_check", "enable_url_check", "enable_local_check", "strict_login_mode",
   "disable_proxy", "network_check_timeout", "post_login_delay", "check_auth_url",
   "auth_url_targets", "script_timeout"]

/-- The members of the request's monitor section; unknown ones are refused, and an array has an
    item for every field. -/
def monitorPatchMembers : Json → Option (List (String × Json))
  | .obj members =>
    if members.all fun m => monitorPatchFields.contains m.1 then some members else none
  | .arr items =>
    if items.length = monitorPatchFields.length then some (monitorPatchFields.zip items) else none
  | _ => none

def readMonitorPatch (j : Json) : Option MonitorPatch := do
  let members ← monitorPatchMembers j
  let number := Json.field (Json.readOption asU64) none members
  let flag := Json.field (Json.readOption Json.asBool) none members
  let texts := Json.field (Json.readOption (Json.readVec asStr)) none members
  let checkIntervalSeconds ← number "check_interval_seconds"
  let pingTargets ← texts "ping_targets"
  let testUrls ← texts "test_urls"
  let urlCheckUrls ← texts "url_check_urls"
  let enableTcpCheck ← flag "enable_tcp_check"
  let enableHttpCheck ← flag "enable_http_check"
  let enableUrlCheck ← flag "enable_url_check"
  let enableLocalCheck ← flag "enable_local_check"
  let strictLoginMode ← flag "strict_login_mode"
  let disableProxy ← flag "disable_proxy"
  let networkCheckTimeout ← number "network_check_timeout"
  let postLoginDelay ← number "post_login_delay"
  let checkAuthUrl ← flag "check_auth_url"
  let authUrlTargets ← texts "auth_url_targets"
  let scriptTimeout ← number "script_timeout"
  return { checkIntervalSeconds, pingTargets, testUrls, urlCheckUrls, enableTcpCheck
           enableHttpCheck, enableUrlCheck, enableLocalCheck, strictLoginMode, disableProxy
           networkCheckTimeout, postLoginDelay, checkAuthUrl, authUrlTargets, scriptTimeout }

/-- An item of the list: the URL, and behind a bar what is expected of it. -/
def splitCheckUrl (raw : String) : String × Option String :=
  match splitOnce '|' raw.toList with
  | some (url, response) =>
    (String.ofList (strip url), some (String.ofList (strip response)))
  | none => (trim raw, none)

def splitCheckUrls (urls : List String) : List String × List (String × Json) :=
  urls.foldl
    (fun acc raw =>
      match splitCheckUrl raw with
      | (url, some response) => (acc.1 ++ [url], setMember acc.2 url (.str response))
      | (url, none) => (acc.1 ++ [url], acc.2))
    ([], [])

/-- A member for a field that is given. -/
def given {α : Type} (name : String) (value : α → Json) (o : Option α) : List (String × Json) :=
  o.toList.map fun a => (name, value a)

def jsonNumber (n : Nat) : Json := .number (toString n)
def jsonTexts (l : List String) : Json := .arr (l.map .str)

/-- The switch of the URL checks: as given, else whether the list that is given has items. -/
def MonitorPatch.urlEnabled (patch : MonitorPatch) : Option Bool :=
  patch.enableUrlCheck.or (patch.urlCheckUrls.map fun items => !items.isEmpty)

def MonitorPatch.intoBackendPatch (patch : MonitorPatch) : List (String × Json) :=
  given "check_interval" jsonNumber patch.checkIntervalSeconds ++
  given "tcp_targets" jsonTexts patch.pingTargets ++
  given "http_targets" jsonTexts patch.testUrls ++
  given "url_targets" (fun urls => jsonTexts (splitCheckUrls urls).1) patch.urlCheckUrls ++
  given "url_expected_responses" (fun urls => .obj (splitCheckUrls urls).2) patch.urlCheckUrls ++
  given "url_enabled" Json.bool patch.urlEnabled ++
  given "tcp_enabled" Json.bool patch.enableTcpCheck ++
  given "http_enabled" Json.bool patch.enableHttpCheck ++
  given "strict_login_mode" Json.bool patch.strictLoginMode ++
  given "disable_proxy" Json.bool patch.disableProxy ++
  given "tcp_timeout" jsonNumber patch.networkCheckTimeout ++
  given "post_login_delay" jsonNumber patch.postLoginDelay

/-- The stored URLs as the response shows them. -/
def urlCheckUrls (monitor : Json) : List String :=
  let targets := ((monitor.get "url_targets").bind (Json.readVec asStr)).getD []
  targets.map fun url =>
    match ((monitor.get "url_expected_responses").bind (·.get url)).bind asStr with
    | some expected => url ++ "|" ++ expected
    | none => url

def monitorBackendToFrontend (monitor : Json) : Json :=
  let member name := (monitor.get name).getD .null
  .obj [("check_interval_seconds", member "check_interval"),
    ("network_check_timeout", member "tcp_timeout"), ("ping_targets", member "tcp_targets"),
    ("enable_tcp_check", member "tcp_enabled"), ("enable_http_check", member "http_enabled"),
    ("test_urls", member "http_targets"), ("enable_url_check", member "url_enabled"),
    ("auth_url_targets", .arr []), ("url_check_urls", jsonTexts (urlCheckUrls monitor)),
    ("strict_login_mode", member "strict_login_mode"), ("disable_proxy", member "disable_proxy"),
    ("script_timeout", jsonNumber 60), ("post_login_delay", member "post_login_delay")]

/-! ## The request -/

def profileKeys : List String :=
  ["network", "username", "password", "auth_url", "trigger_url", "isp", "active_task",
   "login_channel", "active_http_task", "active_script_task"]

def globalKeys : List String :=
  ["browser", "monitor", "pause", "logging", "retry", "app_settings", "retry_settings", "app",
   "worker", "updater"]

/-- The section that a name of the front end means. -/
def fieldMap (name : String) : String :=
  (List.lookup name [("retry", "retry_settings"), ("app_settings", "app")]).getD name

inductive PatchError where
  | monitorInvalid
  | emptyActiveProfileId
  | noSuchProfile (id : String)
  | portRange
  | notText (key : String)
  | profileUnreadable (id : String)
  /-- The profile refuses the fields, or the merged settings do not read. -/
  | profileRefused (message : String)
  | settingsInvalid
  | invalidProfileId (id : String)
  | writeFailed
  | reloadFailed
  deriving DecidableEq, Repr

/-- The text of an error; `detail` is what a library says. -/
def PatchError.message (detail : String) : PatchError → String
  | .monitorInvalid => "monitor 配置无效: " ++ detail
  | .emptyActiveProfileId => "active_profile_id 不能为空"
  | .noSuchProfile id => "active_profile_id 指向的 Profile 不存在: " ++ id ++ "（" ++ detail ++ "）"
  | .portRange => "端口范围必须在 1-65535 之间"
  | .notText key => key ++ " 必须是字符串"
  | .profileUnreadable id => "Profile " ++ id ++ " 加载失败（" ++ detail ++ "），凭证修改未生效，请重试"
  | .profileRefused message => message
  | .settingsInvalid => "设置合并后校验失败: " ++ detail
  | .invalidProfileId _ | .writeFailed | .reloadFailed => detail

structure FlatPatch where
  globalPatch : List (String × Json) := []
  profilePatch : List (String × Json) := []
  otherPatch : List (String × Json) := []

def FlatPatch.add (patch : FlatPatch) (name : String) (v : Json) : Except PatchError FlatPatch :=
  if name = "carrier_custom" then .ok patch
  else if profileKeys.contains name then
    .ok { patch with profilePatch := setMember patch.profilePatch name v }
  else if name = "monitor" then
    match readMonitorPatch v with
    | some monitor =>
      let backend := Json.obj monitor.intoBackendPatch
      .ok { patch with globalPatch := setMember patch.globalPatch "monitor" backend }
    | none => .error .monitorInvalid
  else if globalKeys.contains name then
    .ok { patch with globalPatch := setMember patch.globalPatch (fieldMap name) v }
  else .ok { patch with otherPatch := setMember patch.otherPatch name v }

def sortPatch : FlatPatch → List (String × Json) → Except PatchError FlatPatch
  | patch, [] => .ok patch
  | patch, (name, v) :: rest =>
    match patch.add name v with
    | .ok patch => sortPatch patch rest
    | .error e => .error e

/-- The settings with the patches merged into them. -/
def mergeSettings (globalPatch otherPatch : List (String × Json)) (settings : SettingsData) :
    Option SettingsData :=
  let current := settings.value
  let current :=
    if globalPatch.isEmpty then current
    else current.update "global" fun old => jsonMerge old (.obj globalPatch)
  let current := if otherPatch.isEmpty then current else jsonMerge current (.obj otherPatch)
  SettingsData.ofValue current

structure ConfigStore where
  /-- The settings file. -/
  file : Json
  /-- What is loaded from it. -/
  settings : SettingsData
  /-- The profile of this id can be loaded. -/
  loads : String → Bool

/-- What else decides about a request. -/
structure PatchEnv where
  /-- What the profile makes of its fields. -/
  mergeProfile : List (String × Json) → Except String Unit := fun _ => .ok ()
  /-- All files are written. -/
  writes : Bool := true
  /-- The runtime configuration can be built. -/
  builds : Bool := true

def checkActiveProfileId (store : ConfigStore) (members : List (String × Json)) :
    Except PatchError Unit :=
  match (members.lookup "active_profile_id").bind asStr with
  | some id =>
    if id = "" then .error .emptyActiveProfileId
    else if store.loads id then .ok () else .error (.noSuchProfile id)
  | none => .ok ()

def checkPort (globalPatch : List (String × Json)) : Except PatchError Unit :=
  match (globalPatch.lookup "app").bind (·.get "port") with
  | some port =>
    if port.asU64.any fun p => 1 ≤ p && p ≤ 65535 then .ok () else .error .portRange
  | none => .ok ()

def textKeys : List String :=
  ["username", "auth_url", "trigger_url", "isp", "active_task", "active_http_task",
   "active_script_task"]

def checkTexts (profilePatch : List (String × Json)) : Except PatchError Unit :=
  match textKeys.find? fun key => (profilePatch.lookup key).any fun v => v.asStr.isNone with
  | some key => .error (.notText key)
  | none => .ok ()

/-- The profile that the request changes: the one it switches to, else the active one. -/
def patchedProfile (store : ConfigStore) (members : List (String × Json)) : String :=
  match (members.lookup "active_profile_id").bind asStr with
  | some id => if id = "" then store.settings.activeProfileId else id
  | none => store.settings.activeProfileId

/-- The profile fields, up to their commit. -/
def commitProfile (env : PatchEnv) (store : ConfigStore) (members : List (String × Json))
    (profilePatch : List (String × Json)) : Except PatchError Unit :=
  if profilePatch.isEmpty then .ok ()
  else
    let id := patchedProfile store members
    if !store.loads id then .error (.profileUnreadable id)
    else if !isValidProfileId id then .error (.invalidProfileId id)
    else
      match env.mergeProfile profilePatch with
      | .ok () => .ok ()
      | .error message => .error (.profileRefused message)

/-- Merging of the settings, and writing; without a patch of them they are not written. -/
def commitSettings (env : PatchEnv) (store : ConfigStore) (patch : FlatPatch) :
    Except PatchError ConfigStore :=
  if patch.globalPatch.isEmpty && patch.otherPatch.isEmpty then
    if patch.profilePatch.isEmpty || env.writes then .ok store else .error .writeFailed
  else
    match mergeSettings patch.globalPatch patch.otherPatch store.settings with
    | none => .error .settingsInvalid
    | some settings =>
      if env.writes then .ok { store with file := settings.value, settings } else .error .writeFailed

def applyFlatSettingsPatch (env : PatchEnv) (store : ConfigStore) :
    Json → Except PatchError ConfigStore
  | .obj members => do
    let patch ← sortPatch {} members
    checkActiveProfileId store members
    checkPort patch.globalPatch
    checkTexts patch.profilePatch
    commitProfile env store members patch.profilePatch
    commitSettings env store patch
  | _ => .ok store

/-- Reloading needs the active profile, or the default one in its place. -/
def reload (env : PatchEnv) (store : ConfigStore) : Bool :=
  let id := store.settings.activeProfileId
  let active := if isValidProfileId id then id else "default"
  env.builds && (store.loads active || store.loads "default")

def patchSettings (env : PatchEnv) (store : ConfigStore) (patch : Json) :
    Except PatchError ConfigStore := do
  let store ← applyFlatSettingsPatch env store patch
  if reload env store then .ok store else .error .reloadFailed

/-- A fresh configuration. -/
def freshStore : ConfigStore where
  file := SettingsData.default.value
  settings := .default
  loads := fun id => id == "default"

/-! ## A name of its own part -/

/-- A name that is always added to the same part is found there. -/
theorem lookup_sortPatch (part : FlatPatch → List (String × Json)) {key : String}
    (hadd : ∀ {patch patch' : FlatPatch} {name : String} {v : Json},
      patch.add name v = .ok patch' →
        (part patch').lookup key = if key = name then some v else (part patch).lookup key)
    {patch patch' : FlatPatch} {members : List (String × Json)}
    (hnames : (members.map Prod.fst).Nodup) (hsort : sortPatch patch members = .ok patch') :
    (part patch').lookup key = (members.lookup key).or ((part patch).lookup key) := by
  induction members generalizing patch with
  | nil =>
    cases hsort
    rfl
  | cons m members ih =>
    obtain ⟨name, v⟩ := m
    rw [List.map_cons, List.nodup_cons] at hnames
    unfold sortPatch at hsort
    split at hsort
    next added hstep =>
      rw [ih hnames.2 hsort, hadd hstep, lookup_cons_ite]
      split
      next heq =>
        have hlater : members.lookup key = none := lookup_eq_none_of_not_mem (heq ▸ hnames.1)
        rw [hlater]
        rfl
      · rfl
    · cases hsort

/-! ## An accepted request -/

/-- The steps of a request that is accepted. -/
structure Accepted (env : PatchEnv) (store t : ConfigStore) (members : List (String × Json))
    (patch : FlatPatch) : Prop where
  sorted : sortPatch {} members = .ok patch
  active : checkActiveProfileId store members = .ok ()
  port : checkPort patch.globalPatch = .ok ()
  loads : t.loads = store.loads
  /-- Either there is nothing to merge, or the file holds what comes of it. -/
  settings : patch.globalPatch = [] ∧ patch.otherPatch = [] ∧ t = store ∨
    mergeSettings patch.globalPatch patch.otherPatch store.settings = some t.settings ∧
      t.file = t.settings.value
  reloads : reload env t = true

theorem accepted {env : PatchEnv} {store t : ConfigStore} {members : List (String × Json)}
    (h : patchSettings env store (.obj members) = .ok t) :
    ∃ patch, Accepted env store t members patch := by
  obtain ⟨u, hu, h⟩ := bind_eq_ok.mp h
  split at h
  next hreload =>
    cases h
    obtain ⟨patch, hsorted, hu⟩ := bind_eq_ok.mp hu
    obtain ⟨hactive, hu⟩ := check_eq_ok.mp hu
    obtain ⟨hport, hu⟩ := check_eq_ok.mp hu
    obtain ⟨-, hu⟩ := check_eq_ok.mp hu
    obtain ⟨-, hu⟩ := check_eq_ok.mp hu
    unfold commitSettings at hu
    split at hu
    next hempty =>
      rw [Bool.and_eq_true, List.isEmpty_iff, List.isEmpty_iff] at hempty
      split at hu
      · cases hu
        exact ⟨patch, hsorted, hactive, hport, rfl, .inl ⟨hempty.1, hempty.2, rfl⟩, hreload⟩
      · cases hu
    · split at hu
      · cases hu
      next settings hmerge =>
        split at hu
        · cases hu
          exact ⟨patch, hsorted, hactive, hport, rfl, .inr ⟨hmerge, rfl⟩, hreload⟩
        · cases hu
  · cases h

/-! ## Merging, member by member -/

/-- What a patch makes of a member. -/
def merged (old : Option Json) : Option Json → Option Json
  | none => old
  | some v => if v.isNull then none else some (jsonMerge (old.getD .null) v)

theorem lookup_mergeMembers (members patch : List (String × Json))
    (hnames : (patch.map Prod.fst).Nodup) (key : String) :
    (mergeMembers members patch).lookup key = merged (members.lookup key) (patch.lookup key) := by
  induction patch generalizing members with
  | nil =>
    rw [mergeMembers]
    rfl
  | cons entry patch ih =>
    obtain ⟨name, v⟩ := entry
    rw [List.map_cons, List.nodup_cons] at hnames
    rw [mergeMembers, ih _ hnames.2, lookup_cons_ite]
    by_cases hkey : key = name
    · have hlater : patch.lookup key = none := lookup_eq_none_of_not_mem (hkey ▸ hnames.1)
      rw [hlater, if_pos hkey, hkey]
      unfold merged
      dsimp only
      split
      · exact (lookup_filter_ne members name name).trans (if_pos rfl)
      · rw [Json.lookup_setMember, if_pos rfl]
    · have hsame : (if v.isNull = true then removeMember members name
          else setMember members name (jsonMerge ((members.lookup name).getD .null) v)).lookup key =
          members.lookup key := by
        split
        · exact (lookup_filter_ne members key name).trans (if_neg hkey)
        · rw [Json.lookup_setMember, if_neg hkey]
      rw [if_neg hkey, hsame]

/-- Settings as an object, whose global section is an object. -/
structure Opened (s : SettingsData) (vs globals : List (String × Json)) : Prop where
  value : s.value = .obj vs
  fields : Kind.HasFields settingsData vs
  global : vs.lookup "global" = some (.obj globals)
  globalFields : Kind.HasFields globalConfig globals

theorem opened (s : SettingsData) : ∃ vs globals, Opened s vs globals := by
  obtain ⟨vs, hvalue, hfields⟩ := Kind.hasFields_of_read s.reads
  obtain ⟨v, hglobal, hread⟩ := hfields.field "global" (.struct globalConfig) rfl
  obtain ⟨globals, rfl, hglobals⟩ := Kind.hasFields_of_read hread
  exact ⟨vs, globals, hvalue, hfields, hglobal, hglobals⟩

/-- The top level of the settings with the patch of the global section merged into it. -/
def patchedTop (vs globals globalPatch : List (String × Json)) (name : String) : Option Json :=
  if name = "global" then some (.obj (mergeMembers globals globalPatch)) else vs.lookup name

theorem globalPatched {s : SettingsData} {vs globals : List (String × Json)}
    (globalPatch : List (String × Json)) (hs : Opened s vs globals) :
    ∃ top, (if globalPatch.isEmpty = true then s.value
      else s.value.update "global" fun old => jsonMerge old (.obj globalPatch)) = .obj top ∧
      ∀ name, top.lookup name = patchedTop vs globals globalPatch name := by
  unfold patchedTop
  cases globalPatch with
  | nil =>
    refine ⟨vs, hs.value, fun name => ?_⟩
    split
    next heq => rw [heq, hs.global, mergeMembers]
    · rfl
  | cons entry rest =>
    have hupdate : s.value.update "global" (fun old => jsonMerge old (.obj (entry :: rest))) =
        .obj (vs.map fun m =>
          (m.1, if m.1 = "global" then jsonMerge m.2 (.obj (entry :: rest)) else m.2)) := by
      rw [hs.value]
      rfl
    refine ⟨_, hupdate, fun name => ?_⟩
    rw [lookup_map_key vs fun key x => if key = "global" then jsonMerge x (.obj (entry :: rest)) else x]
    split
    next heq =>
      rw [heq, hs.global]
      rfl
    · cases vs.lookup name <;> rfl

/-- The merged settings, member by member. -/
theorem lookup_mergeSettings {globalPatch otherPatch vs globals : List (String × Json)}
    {s t : SettingsData} (hs : Opened s vs globals) (hnames : (otherPatch.map Prod.fst).Nodup)
    (h : mergeSettings globalPatch otherPatch s = some t) :
    ∃ vs', t.value = .obj vs' ∧ ∀ name, vs'.lookup name = (settingsData.lookup name).bind fun k =>
      k.readFrom (merged (patchedTop vs globals globalPatch name) (otherPatch.lookup name)) := by
  obtain ⟨top, htop, hlookup⟩ := globalPatched globalPatch hs
  have hmerged : mergeSettings globalPatch otherPatch s =
      SettingsData.ofValue (.obj (mergeMembers top otherPatch)) := by
    unfold mergeSettings
    dsimp only
    rw [htop]
    cases otherPatch <;> rfl
  rw [hmerged] at h
  obtain ⟨members, vs', hmembers, hvalue, hread⟩ :=
    Kind.read_struct_eq (SettingsData.read_of_ofValue h)
  cases hmembers
  refine ⟨vs', hvalue, fun name => ?_⟩
  rw [hread, lookup_mergeMembers _ _ hnames, hlookup]

end CampusAuth.Web
