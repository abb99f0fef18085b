import CampusAuth.Lib.Json
import CampusAuth.Lib.Serde
import CampusAuth.Config.Runtime
import CampusAuth.Config.Transactions
import CampusAuth.Config.ProfileSlug

/- Sharing a profile (`web/routes/profiles.rs`, `config/profiles.rs`): the payload of an export
   and its import.

   The import looks for an id that no profile has, and `create_profile` makes a slug of that id
   again. A suffix takes an id of 63 or 64 characters past the end of a slug, so what is
   created is no longer what was looked for; `import_export_iff` says which exports can be
   imported where. The parser of addresses is a parameter; the writes do not fail. -/
namespace CampusAuth.Web
open Lib Config

/-- What the `url` crate makes of an address. -/
structure ParsedUrl where
  scheme : String
  host : Option String

abbrev UrlParser := String → Option ParsedUrl

inductive ShareError where
  | badRequest (message : Text)
  | conflict (message : Text)
  | profileIdConflict (id : String)
  | invalidProfileId (id : String)
  deriving DecidableEq

/-- The fields of `ProfileData` beside the id, with their defaults. -/
structure ProfileFields (N : Type) where
  network : Option N := none
  name : String := "默认网络"
  username : String := ""
  password : String := ""
  authUrl : String := ""
  triggerUrl : String := ""
  isp : String := ""
  gatewayIp : String := ""
  wifiSsid : String := ""
  activeTask : String := ""
  loginChannel : LoginChannel := .browser
  activeHttpTask : String := ""
  activeScriptTask : String := ""
  deriving DecidableEq

variable {N : Type}

/-! ## Addresses -/

/-- Trims an address and checks it; an empty one passes. -/
def validateHttpUrl (parse : UrlParser) (label raw : String) : Except ShareError String :=
  let trimmed := trim raw
  if trimmed.toList.isEmpty then .ok trimmed
  else
    match parse trimmed with
    | none => .error (.badRequest (label ++ "格式非法: " ++ trimmed).toList)
    | some parsed =>
      if parsed.scheme ≠ "http" ∧ parsed.scheme ≠ "https" then
        .error (.badRequest (label ++ "仅支持 http/https，当前为: " ++ parsed.scheme).toList)
      else
        match parsed.host with
        | none => .error (.badRequest (label ++ "缺少主机名: " ++ trimmed).toList)
        | some host =>
          if host.toList.isEmpty then
            .error (.badRequest (label ++ "缺少主机名: " ++ trimmed).toList)
          else .ok trimmed

def authUrlLabel : String := "认证地址"

def triggerUrlLabel : String := "重定向触发地址"

/-! ## The profiles on disk -/

/-- The profile files by their ids. -/
structure ProfileDir (N : Type) where
  files : List (String × ProfileData (ProfileFields N))
  stored : ∀ f ∈ files, f.2.id = f.1

namespace ProfileDir

def file (dir : ProfileDir N) (id : String) : Option (ProfileData (ProfileFields N)) :=
  dir.files.lookup id

/-- The ids of `list_profiles`. -/
def ids (dir : ProfileDir N) : List String := dir.files.map (·.2.id)

/-- Writes the file of the profile's id. -/
def save (dir : ProfileDir N) (profile : ProfileData (ProfileFields N)) : ProfileDir N where
  files := (profile.id, profile) :: dir.files.filter (·.1 ≠ profile.id)
  stored := fun f hf => by
    rcases List.mem_cons.mp hf with rfl | hf
    · rfl
    · exact dir.stored f (List.mem_filter.mp hf).1

def createProfileAtomic (dir : ProfileDir N) (profile : ProfileData (ProfileFields N)) :
    Except ShareError (ProfileDir N) :=
  if !isValidProfileId profile.id then .error (.invalidProfileId profile.id)
  else if (dir.file profile.id).isSome then .error (.profileIdConflict profile.id)
  else .ok (dir.save profile)

def createProfile (dir : ProfileDir N) (id : String) (data : ProfileData (ProfileFields N)) :
    Except ShareError (ProfileDir N) :=
  let slug := slugifyId id
  if slug.toList.isEmpty then .error (.profileIdConflict id)
  else if !isValidProfileId slug then .error (.invalidProfileId slug)
  else dir.createProfileAtomic { data with id := slug }

end ProfileDir

/-! ## Export -/

def channelNames : List (String × LoginChannel) :=
  [("browser", .browser), ("http", .http), ("script", .script)]

def channelValue : LoginChannel → Json
  | .browser => .str "browser"
  | .http => .str "http"
  | .script => .str "script"

def profileShareFormat : Nat := 1

/-- The fields of a payload: the account and the bindings are empty. -/
def sharePayloadProfile (f : ProfileFields N) : Json :=
  .obj [("name", .str f.name), ("username", .str ""), ("password", .str ""),
    ("auth_url", .str f.authUrl), ("trigger_url", .str f.triggerUrl), ("isp", .str f.isp),
    ("gateway_ip", .str f.gatewayIp), ("wifi_ssid", .str f.wifiSsid), ("active_task", .str ""),
    ("login_channel", channelValue f.loginChannel), ("active_http_task", .str ""),
    ("active_script_task", .str "")]

/-- `now` and `version` are the time of the export and the version of the program. -/
def buildSharePayload (now version : String) (profile : ProfileData (ProfileFields N)) : Json :=
  .obj [("campus_auth_profile", .number (toString profileShareFormat)), ("exported_at", .str now),
    ("app_version", .str version), ("suggested_id", .str profile.id),
    ("profile", sharePayloadProfile profile.fields)]

/-! ## Import -/

/-- The envelope of an answer, or the payload itself. -/
def shareRoot (body : Json) : Json := ((body.get "data").filter Json.isObject).getD body

/-- The member that must be there, of the format this version reads. -/
def shareObject (root : Json) : Except ShareError Json :=
  match (root.get "campus_auth_profile").bind Json.asU64 with
  | none => .error (.badRequest "不是有效的方案分享文件（缺少 campus_auth_profile 标记）".toList)
  | some version =>
    if version > profileShareFormat then
      .error (.badRequest ("该方案由更新版本的应用导出（格式 " ++ toString version ++
        "，当前支持 " ++ toString profileShareFormat ++ "），请先升级").toList)
    else
      match (root.get "profile").filter Json.isObject with
      | none => .error (.badRequest "分享文件缺少 profile 字段".toList)
      | some obj => .ok obj

def shareChannel (obj : Json) : Except ShareError LoginChannel :=
  match obj.get "login_channel" with
  | none => .ok .browser
  | some v =>
    match v.readEnum channelNames with
    | none => .error (.badRequest "分享文件的 login_channel 非法（仅 browser/http/script）".toList)
    | some channel => .ok channel

def checkShareName (name : String) : Except ShareError Unit :=
  if isBlank name then .error (.badRequest "分享文件缺少方案名称".toList) else .ok ()

/-- An address of a share file is checked when it is not blank. -/
def checkShareUrl (parse : UrlParser) (label url : String) : Except ShareError Unit :=
  if !isBlank url then
    match validateHttpUrl parse label url with
    | .ok _ => .ok ()
    | .error e => .error e
  else .ok ()

/-- The slug of the suggested id, else that of the name. -/
def suggestedId (suggestion : Option String) (name : String) : String :=
  match (suggestion.map slugifyId).filter fun s => !s.toList.isEmpty with
  | some s => s
  | none =>
    let byName := slugifyId name
    if byName.toList.isEmpty then "imported-profile" else byName

def parseSharePayload (parse : UrlParser) (body : Json) :
    Except ShareError (ProfileData (ProfileFields N) × String × Bool) := do
  let root := shareRoot body
  let obj ← shareObject root
  let loginChannel ← shareChannel obj
  let fields : ProfileFields N :=
    { name := obj.text "name", authUrl := obj.text "auth_url",
      triggerUrl := obj.text "trigger_url", isp := obj.text "isp",
      gatewayIp := obj.text "gateway_ip", wifiSsid := obj.text "wifi_ssid", loginChannel }
  let legacyHttpConfigDropped := !isBlank (obj.text "http_url")
  checkShareName fields.name
  checkShareUrl parse authUrlLabel fields.authUrl
  checkShareUrl parse triggerUrlLabel fields.triggerUrl
  let suggested := suggestedId ((root.get "suggested_id").bind Json.asStr) fields.name
  pure ({ id := "default", fields }, suggested, legacyHttpConfigDropped)

/-- The suffixes that are tried. -/
def shareSuffixes : List Nat := List.range' 2 9999

/-- An id that no profile has: the suggested one, or the first free one with a suffix. -/
def pickTargetId (existing : List String) (suggested : String) : Except ShareError String :=
  if existing.contains suggested then
    match (shareSuffixes.map (suffixedId suggested)).find? fun c => !existing.contains c with
    | some candidate => .ok candidate
    | none => .error (.conflict "同名方案过多，请先清理后再导入".toList)
  else .ok suggested

/-- The id and the flag of the answer, and the profiles behind the import. -/
def importProfile (parse : UrlParser) (body : Json) (dir : ProfileDir N) :
    Except ShareError ((String × Bool) × ProfileDir N) := do
  let (profile, suggested, legacyHttpConfigDropped) ← parseSharePayload parse body
  let targetId ← pickTargetId dir.ids suggested
  let dir ← dir.createProfile targetId { profile with id := targetId }
  pure ((targetId, legacyHttpConfigDropped), dir)

/-! ## What an import keeps -/

/-- The profile without its network, credentials and bindings. -/
def ProfileFields.shared (f : ProfileFields N) : ProfileFields N :=
  { f with network := none, username := "", password := "", activeTask := "",
           activeHttpTask := "", activeScriptTask := "" }

/-- A profile with an id that can be stored, and with addresses the check before a save gave. -/
structure SavedProfile (parse : UrlParser) (N : Type) where
  profile : ProfileData (ProfileFields N)
  validId : isValidProfileId profile.id = true
  authUrl : ∃ raw, validateHttpUrl parse authUrlLabel raw = .ok profile.fields.authUrl
  triggerUrl : ∃ raw, validateHttpUrl parse triggerUrlLabel raw = .ok profile.fields.triggerUrl

variable {parse : UrlParser} {dir : ProfileDir N}

/-- The id an import of the profile suggests. -/
def SavedProfile.suggested (src : SavedProfile parse N) : String :=
  suggestedId (some src.profile.id) src.profile.fields.name

theorem trim_trim (s : String) : trim (trim s) = trim s := by
  have heq : ∀ t : String, trim t = String.ofList (strip t.toList) := fun _ => rfl
  rw [heq, heq, String.toList_ofList, strip_strip]

theorem validateHttpUrl_eq_trim {label raw url : String}
    (h : validateHttpUrl parse label raw = .ok url) : url = trim raw := by
  unfold validateHttpUrl at h
  dsimp only at h
  split at h
  · exact (Except.ok.inj h).symm
  · split at h
    · cases h
    · split at h
      · cases h
      · split at h
        · cases h
        · split at h
          · cases h
          · exact (Except.ok.inj h).symm

/-- What was checked passes the check again. -/
theorem validateHttpUrl_again {label raw url : String}
    (h : validateHttpUrl parse label raw = .ok url) : validateHttpUrl parse label url = .ok url := by
  have hurl := validateHttpUrl_eq_trim h
  subst hurl
  unfold validateHttpUrl at h ⊢
  rwa [trim_trim]

theorem checkShareUrl_of_saved {label url : String}
    (h : ∃ raw, validateHttpUrl parse label raw = .ok url) :
    checkShareUrl parse label url = .ok () := by
  obtain ⟨raw, hraw⟩ := h
  unfold checkShareUrl
  rw [validateHttpUrl_again hraw]
  split <;> rfl

theorem readEnum_channelValue (channel : LoginChannel) :
    (channelValue channel).readEnum channelNames = some channel := by
  cases channel <;> rfl

/-- The payload of a profile with a name is read as what an import keeps of it. -/
theorem parse_share (now version : String) (src : SavedProfile parse N) :
    parseSharePayload parse (buildSharePayload now version src.profile) =
      if isBlank src.profile.fields.name then
        .error (.badRequest "分享文件缺少方案名称".toList)
      else .ok ((⟨"default", src.profile.fields.shared⟩, src.suggested, false)) := by
  have hobject : shareObject (shareRoot (buildSharePayload now version src.profile)) =
      .ok (sharePayloadProfile src.profile.fields) := rfl
  have hchannel : shareChannel (sharePayloadProfile src.profile.fields) =
      .ok src.profile.fields.loginChannel := by
    unfold shareChannel
    rw [show (sharePayloadProfile src.profile.fields).get "login_channel" =
      some (channelValue src.profile.fields.loginChannel) from rfl]
    dsimp only
    rw [readEnum_channelValue]
  have hauth : checkShareUrl parse authUrlLabel
      ((sharePayloadProfile src.profile.fields).text "auth_url") = .ok () :=
    checkShareUrl_of_saved src.authUrl
  have htrigger : checkShareUrl parse triggerUrlLabel
      ((sharePayloadProfile src.profile.fields).text "trigger_url") = .ok () :=
    checkShareUrl_of_saved src.triggerUrl
  unfold parseSharePayload
  simp only [hobject, hchannel, hauth, htrigger, bind, Except.bind]
  unfold checkShareName
  rw [show (sharePayloadProfile src.profile.fields).text "name" = src.profile.fields.name from rfl]
  by_cases hblank : isBlank src.profile.fields.name = true
  · rw [if_pos hblank, if_pos hblank]
  · rw [if_neg hblank, if_neg hblank]
    rfl

/-! ## Which exports can be imported -/

theorem file_save (dir : ProfileDir N) (profile : ProfileData (ProfileFields N)) (id : String) :
    (dir.save profile).file id = if id = profile.id then some profile else dir.file id := by
  unfold ProfileDir.file ProfileDir.save
  rw [lookup_cons_ite, lookup_filter_ne]
  split <;> rfl

/-- An id that no profile has names no file. -/
theorem file_eq_none_iff (dir : ProfileDir N) (id : String) : dir.file id = none ↔ id ∉ dir.ids := by
  have hids : dir.ids = dir.files.map Prod.fst :=
    List.map_congr_left fun f hf => dir.stored f hf
  rw [hids]
  refine ⟨fun hnone hid => ?_, lookup_eq_none_of_not_mem⟩
  obtain ⟨f, hf, rfl⟩ := List.mem_map.mp hid
  have := List.lookup_eq_none_iff.mp hnone f hf
  simp at this

/-- The import makes a profile under the id it answers, and leaves the others alone. -/
def ImportsExport (parse : UrlParser) (now version : String) (src : SavedProfile parse N)
    (dir : ProfileDir N) : Prop :=
  ∃ targetId dropped dir',
    importProfile parse (buildSharePayload now version src.profile) dir =
      .ok ((targetId, dropped), dir') ∧
    dir.file targetId = none ∧
    dir'.file targetId = some ⟨targetId, src.profile.fields.shared⟩ ∧
    ∀ id, id ≠ targetId → dir'.file id = dir.file id

/-- The suggested id is taken with every suffix that is tried. -/
def SameNamed (src : SavedProfile parse N) (dir : ProfileDir N) : Prop :=
  src.suggested ∈ dir.ids ∧ ∀ n ∈ shareSuffixes, suffixedId src.suggested n ∈ dir.ids

/-- The profile has a name; the suggested id is free and no device name, or it is taken and a
    free one with a suffix is no longer than an id can be. -/
def Importable (src : SavedProfile parse N) (dir : ProfileDir N) : Prop :=
  isBlank src.profile.fields.name = false ∧
    if src.suggested ∈ dir.ids then
      ∃ n ∈ shareSuffixes, suffixedId src.suggested n ∉ dir.ids ∧
        (suffixedId src.suggested n).toList.length ≤ 64
    else isWindowsReservedName src.suggested = false

theorem suggestedId_isSlug (suggestion : Option String) (name : String) :
    IsSlug (suggestedId suggestion name).toList ∧ (suggestedId suggestion name).toList ≠ [] := by
  unfold suggestedId
  split
  next s hs =>
    obtain ⟨hsome, hne⟩ := Option.filter_eq_some_iff.mp hs
    obtain ⟨raw, -, rfl⟩ := Option.map_eq_some_iff.mp hsome
    exact ⟨slugifyId_isSlug raw, by simpa using hne⟩
  next =>
    dsimp only
    split
    · exact ⟨(slugifyId_eq_self_iff _).mp (by decide), by decide⟩
    next hne => exact ⟨slugifyId_isSlug name, by simpa using hne⟩

/-- A creation goes to the slug of the id. -/
theorem createProfile_eq {id : String} (data : ProfileData (ProfileFields N))
    {dir' : ProfileDir N} (h : dir.createProfile id data = .ok dir') :
    (slugifyId id).toList ≠ [] ∧ isValidProfileId (slugifyId id) = true ∧
      dir.file (slugifyId id) = none ∧ dir' = dir.save { data with id := slugifyId id } := by
  unfold ProfileDir.createProfile at h
  dsimp only at h
  split at h
  · cases h
  next hne =>
    split at h
    · cases h
    next hvalid =>
      unfold ProfileDir.createProfileAtomic at h
      dsimp only at h
      split at h
      · cases h
      · split at h
        · cases h
        next hfree =>
          refine ⟨by simpa using hne, by simpa using hvalid, by simpa using hfree, ?_⟩
          exact (Except.ok.inj h).symm

theorem createProfile_of_slug {id : String} (data : ProfileData (ProfileFields N))
    (hslug : IsSlug id.toList) (hne : id.toList ≠ []) (hreserved : isWindowsReservedName id = false)
    (hfree : dir.file id = none) :
    dir.createProfile id data = .ok (dir.save { data with id }) := by
  have hvalid : isValidProfileId id = true := by rw [hslug.isValidProfileId hne, hreserved]; rfl
  have hempty : id.toList.isEmpty = false := by simpa using hne
  unfold ProfileDir.createProfile ProfileDir.createProfileAtomic
  simp only [slugifyId_of_isSlug hslug, hempty, hvalid, hfree, Bool.false_eq_true, if_false,
    Bool.not_true, Option.isSome_none]

/-- What is picked is free. -/
theorem pickTargetId_free {existing : List String} {s t : String}
    (h : pickTargetId existing s = .ok t) : t ∉ existing := by
  unfold pickTargetId at h
  split at h
  · split at h
    next c hc =>
      obtain rfl := Except.ok.inj h
      simpa using List.find?_some hc
    · cases h
  next hfree =>
    obtain rfl := Except.ok.inj h
    simpa using hfree

theorem pickTargetId_of_free {existing : List String} {s : String} (h : s ∉ existing) :
    pickTargetId existing s = .ok s := by
  unfold pickTargetId
  rw [if_neg (by simpa using h)]

/-- Of a taken id the first free suffix is picked: none before it is free. -/
theorem pickTargetId_of_taken {existing : List String} {s : String} {n : Nat} (h : s ∈ existing)
    (hn : n ∈ shareSuffixes) (hfree : suffixedId s n ∉ existing) :
    ∃ m ≤ n, pickTargetId existing s = .ok (suffixedId s m) := by
  have hsome : (shareSuffixes.find? fun m => !existing.contains (suffixedId s m)).isSome := by
    rw [List.find?_isSome]
    exact ⟨n, hn, by simpa using hfree⟩
  obtain ⟨m, hm⟩ := Option.isSome_iff_exists.mp hsome
  refine ⟨m, ?_, ?_⟩
  · obtain ⟨-, -, hbefore⟩ := List.find?_range'_eq_some.mp hm
    refine not_lt.mp fun hlt => ?_
    have htaken := hbefore n (List.mem_range'_1.mp hn).1 hlt
    simp [hfree] at htaken
  · unfold pickTargetId
    rw [if_pos (by simpa using h), List.find?_map]
    rw [show ((fun c => !existing.contains c) ∘ suffixedId s) =
      fun m => !existing.contains (suffixedId s m) from rfl, hm]
    rfl

/-- A picked id that is no slug, or that names a device, is not the id of the new profile. -/
theorem importsExport_iff_picked (now version : String) (src : SavedProfile parse N)
    (dir : ProfileDir N) :
    ImportsExport parse now version src dir ↔
      isBlank src.profile.fields.name = false ∧
        ∃ t, pickTargetId dir.ids src.suggested = .ok t ∧ IsSlug t.toList ∧ t.toList ≠ [] ∧
          isWindowsReservedName t = false := by
  have himport : importProfile parse (buildSharePayload now version src.profile) dir =
      parseSharePayload parse (buildSharePayload now version src.profile) >>= fun r =>
        pickTargetId dir.ids r.2.1 >>= fun t =>
          dir.createProfile t { r.1 with id := t } >>= fun d => .ok ((t, r.2.2), d) := rfl
  unfold ImportsExport
  rw [himport, parse_share]
  constructor
  · rintro ⟨t, dropped, dir', hok, -, hnew, -⟩
    by_cases hblank : isBlank src.profile.fields.name = true
    · rw [if_pos hblank] at hok
      cases hok
    rw [if_neg hblank] at hok
    obtain ⟨r, hr, hok⟩ := bind_eq_ok.mp hok
    obtain rfl := Except.ok.inj hr
    dsimp only at hok
    obtain ⟨t', hpick, hok⟩ := bind_eq_ok.mp hok
    obtain ⟨d, hcreate, hok⟩ := bind_eq_ok.mp hok
    simp only [Except.ok.injEq, Prod.mk.injEq] at hok
    obtain ⟨⟨rfl, -⟩, rfl⟩ := hok
    obtain ⟨hne, hvalid, -, hdir⟩ := createProfile_eq _ hcreate
    have hfree : dir.file t' = none := (file_eq_none_iff dir t').mpr (pickTargetId_free hpick)
    -- the new profile is under the slug of the picked id, so the picked id is its own slug
    have hself : slugifyId t' = t' := by
      rw [show d = _ from hdir, file_save] at hnew
      split at hnew
      next heq => exact heq.symm
      next => rw [hfree] at hnew; cases hnew
    have hslug := (slugifyId_eq_self_iff t').mp hself
    rw [hself] at hne hvalid
    refine ⟨Bool.eq_false_iff.mpr hblank, t', hpick, hslug, hne, ?_⟩
    rw [hslug.isValidProfileId hne] at hvalid
    simpa using hvalid
  · rintro ⟨hnamed, t, hpick, hslug, hne, hreserved⟩
    have hfree : dir.file t = none := (file_eq_none_iff dir t).mpr (pickTargetId_free hpick)
    have hcreate : dir.createProfile t ⟨t, src.profile.fields.shared⟩ =
        .ok (dir.save ⟨t, src.profile.fields.shared⟩) :=
      createProfile_of_slug _ hslug hne hreserved hfree
    refine ⟨t, false, dir.save ⟨t, src.profile.fields.shared⟩, ?_, hfree, ?_, fun id hid => ?_⟩
    · rw [if_neg (by rw [hnamed]; exact Bool.false_ne_true)]
      refine bind_eq_ok.mpr ⟨_, rfl, ?_⟩
      dsimp only
      exact bind_eq_ok.mpr ⟨t, hpick, bind_eq_ok.mpr ⟨_, hcreate, rfl⟩⟩
    · rw [file_save, if_pos rfl]
    · rw [file_save, if_neg hid]

theorem importsExport_iff (now version : String) (src : SavedProfile parse N)
    (dir : ProfileDir N) :
    ImportsExport parse now version src dir ↔ Importable src dir := by
  have hsuggested := suggestedId_isSlug (some src.profile.id) src.profile.fields.name
  rw [importsExport_iff_picked]
  unfold Importable
  refine and_congr_right fun _ => ?_
  split
  next htaken =>
    constructor
    · rintro ⟨t, hpick, hslug, -, -⟩
      have hfree := pickTargetId_free hpick
      unfold pickTargetId at hpick
      rw [if_pos (by simpa using htaken)] at hpick
      split at hpick
      next c hc =>
        obtain rfl := Except.ok.inj hpick
        obtain ⟨n, hn, rfl⟩ := List.mem_map.mp (List.mem_of_find?_eq_some hc)
        exact ⟨n, hn, hfree, hslug.short⟩
      next => cases hpick
    · rintro ⟨n, hn, hfree, hshort⟩
      obtain ⟨m, hm, hpick⟩ := pickTargetId_of_taken htaken hn hfree
      have hlen := (suffixedId_length_mono src.suggested hm).trans hshort
      refine ⟨_, hpick, hsuggested.1.suffixed hsuggested.2 hlen, ?_, suffixedId_not_reserved _ _⟩
      rw [suffixedId_toList]
      simp
  next hfree =>
    rw [pickTargetId_of_free hfree]
    constructor
    · rintro ⟨t, hpick, -, -, hreserved⟩
      rwa [Except.ok.inj hpick]
    · exact fun hreserved => ⟨_, rfl, hsuggested.1, hsuggested.2, hreserved⟩

/-- A dormitory's profile under an id of 64 characters. -/
def longId : String := String.ofList (List.replicate 64 'a')

def longProfile : ProfileData (ProfileFields Unit) := ⟨longId, { name := "宿舍" }⟩

end CampusAuth.Web
