import CampusAuth.Config.Crypto
import CampusAuth.Web.ProfileShare
import CampusAuth.Web.SettingsPatch

/- The three ways of a password to a profile (`web/routes/profiles.rs`: `create_profile`,
   `update_profile`; `web/routes/config.rs`: `PATCH /api/config`).

   The editor of the profiles encrypts what it is given. The settings page takes a text that starts
   like a stored password for one: `passwords_used` says what is used then. -/
namespace CampusAuth.Web
open Lib Config
open Lib.Json (asStr)

/-! ## The source -/

variable {N : Type}

/-- What the checks of a profile take from elsewhere. -/
structure ProfileChecks (N : Type) where
  parse : UrlParser
  /-- `NetworkSettings::validate` -/
  network : N → Except Text Unit
  /-- The mode is an interface. -/
  pinned : N → Bool
  readNetwork : Json → Option N
  /-- `validate_login_task_binding` -/
  bindTask : LoginChannel → String → String → Except Text Unit

abbrev ProfilesDir (N : Type) := ConfigDir (ProfileFields N) SettingsData

abbrev Profile (N : Type) := ProfileData (ProfileFields N)

inductive SaveError where
  | badRequest (message : Text)
  | config (error : ConfigError)
  | create (error : ShareError)
  | patch (error : PatchError)

def validateProfileNetwork (checks : ProfileChecks N) (f : ProfileFields N) : Except Text Unit :=
  match f.network with
  | none => .ok ()
  | some network => do
    checks.network network
    if f.loginChannel = .script ∧ checks.pinned network then
      .error "指定网卡出口适用于浏览器或 HTTP 登录，任意脚本不能保证绑定，请更换登录渠道".toList
    else .ok ()

/-- The trimmed address, when one is given and passes its check. -/
def httpUrlOr (parse : UrlParser) (label : String) (given : Option String) (old : String) :
    Except Text String :=
  match given with
  | none => .ok old
  | some raw =>
    match validateHttpUrl parse label raw with
    | .ok url => .ok url
    | .error (.badRequest message) => .error message
    | .error _ => .error []

/-- The optional fields of both bodies. -/
structure ProfileOptions (N : Type) where
  network : Option N := none
  authUrl : Option String := none
  triggerUrl : Option String := none
  isp : Option String := none
  gatewayIp : Option String := none
  wifiSsid : Option String := none
  activeTask : Option String := none
  loginChannel : Option LoginChannel := none
  activeHttpTask : Option String := none
  activeScriptTask : Option String := none

def checkNetwork (checks : ProfileChecks N) (given : Option N) : Except Text Unit :=
  match given with
  | none => .ok ()
  | some network => checks.network network

/-- Only the fields that are given change; the outcome is checked as a whole. -/
def ProfileOptions.apply (o : ProfileOptions N) (checks : ProfileChecks N) (f : ProfileFields N) :
    Except Text (ProfileFields N) := do
  let authUrl ← httpUrlOr checks.parse authUrlLabel o.authUrl f.authUrl
  let triggerUrl ← httpUrlOr checks.parse triggerUrlLabel o.triggerUrl f.triggerUrl
  checkNetwork checks o.network
  let f := { f with
    authUrl, triggerUrl
    isp := o.isp.getD f.isp
    gatewayIp := o.gatewayIp.getD f.gatewayIp
    wifiSsid := o.wifiSsid.getD f.wifiSsid
    activeTask := o.activeTask.getD f.activeTask
    loginChannel := o.loginChannel.getD f.loginChannel
    activeHttpTask := o.activeHttpTask.getD f.activeHttpTask
    activeScriptTask := o.activeScriptTask.getD f.activeScriptTask
    network := o.network <|> f.network }
  validateProfileNetwork checks f
  checks.bindTask f.loginChannel f.activeHttpTask f.activeScriptTask
  return f

structure ProfileUpdateBody (N : Type) where
  name : Option String := none
  username : Option String := none
  password : Option String := none
  clearPassword : Bool := false
  options : ProfileOptions N := {}

structure ProfileCreateBody (N : Type) where
  id : Option String := none
  name : String
  username : String
  password : String
  options : ProfileOptions N := {}

/-- `modify_profile_tx` -/
def modifyProfileTx (dir : ProfilesDir N) (id : String)
    (f : Profile N → Except Text (Profile N)) (io : TxIo) :
    Except ConfigError (Except Text (Profile N)) × ProfilesDir N :=
  if !isValidProfileId id then (.error (.invalidProfileId id), dir)
  else
    match dir.loadProfile id io.readProfile with
    | (.error e, dir) => (.error e, dir)
    | (.ok profile, dir) =>
      match f profile with
      | .error msg => (.ok (.error msg), dir)
      | .ok new =>
        match dir.saveProfileLocked { new with id } io.writeProfile with
        | (.error e, dir) => (.error e, dir)
        | (.ok (), dir) => (.ok (.ok { new with id }), dir)

/-- The merge of `update_profile`; the password comes encrypted. -/
def mergeUpdate (checks : ProfileChecks N) (body : ProfileUpdateBody N)
    (encryptedPassword : Option String) (profile : Profile N) : Except Text (Profile N) := do
  let f := profile.fields
  let password := if body.clearPassword then "" else encryptedPassword.getD f.password
  let fields ← body.options.apply checks
    { f with password, name := body.name.getD f.name, username := body.username.getD f.username }
  return { profile with fields }

def updateProfile (cipher : Cipher) (checks : ProfileChecks N) (nonce : Nonce) (id : String)
    (body : ProfileUpdateBody N) (io : TxIo) (dir : ProfilesDir N) :
    Except SaveError Unit × ProfilesDir N :=
  let encryptedPassword := (body.password.filter fun p => !p.isEmpty).map
    (encryptPassword cipher nonce)
  match modifyProfileTx dir id (mergeUpdate checks body encryptedPassword) io with
  | (.error e, dir) => (.error (.config e), dir)
  | (.ok (.error message), dir) => (.error (.badRequest message), dir)
  | (.ok (.ok _), dir) => (.ok (), dir)

def createProfileAtomic (dir : ProfilesDir N) (profile : Profile N) (io : TxIo) :
    Except SaveError Unit × ProfilesDir N :=
  if !isValidProfileId profile.id then (.error (.create (.invalidProfileId profile.id)), dir)
  else if (dir.profiles profile.id).isSome then
    (.error (.create (.profileIdConflict profile.id)), dir)
  else
    match dir.saveProfileLocked profile io.writeProfile with
    | (.error e, dir) => (.error (.config e), dir)
    | (.ok (), dir) => (.ok (), dir)

/-- The id of the path, or that of the body. -/
def ProfileCreateBody.targetId (body : ProfileCreateBody N) (id : String) : String :=
  if id.isEmpty then body.id.getD "" else id

def createProfile (cipher : Cipher) (checks : ProfileChecks N) (nonce : Nonce) (id : String)
    (body : ProfileCreateBody N) (io : TxIo) (dir : ProfilesDir N) :
    Except SaveError Unit × ProfilesDir N :=
  let targetId := body.targetId id
  if targetId.isEmpty then
    (.error (.badRequest "缺少 profile id（路径或 body 至少提供一处）".toList), dir)
  else
    let password := if body.password.isEmpty then "" else encryptPassword cipher nonce body.password
    match body.options.apply checks { name := body.name, username := body.username, password } with
    | .error message => (.error (.badRequest message), dir)
    | .ok fields =>
      let slug := slugifyId targetId
      if slug.toList.isEmpty then (.error (.create (.profileIdConflict targetId)), dir)
      else if !isValidProfileId slug then (.error (.create (.invalidProfileId slug)), dir)
      else createProfileAtomic dir ⟨slug, fields⟩ io

/-- A text member of the patch. -/
def textOr (patch : List (String × Json)) (key old : String) : String :=
  ((patch.lookup key).bind asStr).getD old

def patchedNetwork (checks : ProfileChecks N) (given : Option Json) (old : Option N) :
    Except Text (Option N) :=
  match given with
  | none => .ok old
  | some v =>
    match checks.readNetwork v with
    | some network => .ok (some network)
    | none => .error "网络出口配置格式无效".toList

def patchedChannel (given : Option Json) (old : LoginChannel) : Except Text LoginChannel :=
  match given with
  | none => .ok old
  | some v =>
    match Json.readEnum channelNames v with
    | some channel => .ok channel
    | none => .error "login_channel 仅支持 browser、http 或 script".toList

/-- What the member `password` makes of the stored one: `null` keeps it, an empty text clears it. -/
def patchedPassword (cipher : Cipher) (nonce : Nonce) (given : Option Json) (old : String) :
    Except Text String :=
  match given with
  | none | some .null => .ok old
  | some (.str s) => .ok (if s.isEmpty then "" else savePassword cipher nonce (some s) old)
  | some _ => .error "password 必须是字符串或 null".toList

/-- The merge of `PATCH /api/config`. -/
def mergePatch (cipher : Cipher) (checks : ProfileChecks N) (nonce : Nonce)
    (patch : List (String × Json)) (profile : Profile N) : Except Text (Profile N) := do
  let f := profile.fields
  let network ← patchedNetwork checks (patch.lookup "network") f.network
  let authUrl ← httpUrlOr checks.parse authUrlLabel ((patch.lookup "auth_url").bind asStr) f.authUrl
  let triggerUrl ← httpUrlOr checks.parse triggerUrlLabel ((patch.lookup "trigger_url").bind asStr)
    f.triggerUrl
  let loginChannel ← patchedChannel (patch.lookup "login_channel") f.loginChannel
  let activeHttpTask := textOr patch "active_http_task" f.activeHttpTask
  let activeScriptTask := textOr patch "active_script_task" f.activeScriptTask
  checks.bindTask loginChannel activeHttpTask activeScriptTask
  let password ← patchedPassword cipher nonce (patch.lookup "password") f.password
  let fields := { f with
    network, authUrl, triggerUrl, loginChannel, activeHttpTask, activeScriptTask, password
    username := textOr patch "username" f.username
    isp := textOr patch "isp" f.isp
    activeTask := textOr patch "active_task" f.activeTask }
  validateProfileNetwork checks fields
  return { profile with fields }

instance : Inhabited SettingsData := ⟨SettingsData.default⟩

/-- The id of the profile that a patch changes. -/
def patchedId (members : List (String × Json)) (settings : SettingsData) : String :=
  match (members.lookup "active_profile_id").bind asStr with
  | some id => if id.isEmpty then settings.activeProfileId else id
  | none => settings.activeProfileId

/-- The profile a request switches to has to be there. -/
def checkSwitch (members : List (String × Json)) (io : TxIo) (dir : ProfilesDir N) :
    Except PatchError Unit :=
  match (members.lookup "active_profile_id").bind asStr with
  | none => .ok ()
  | some id =>
    if id.isEmpty then .error .emptyActiveProfileId
    else
      match (dir.loadProfile id io.readProfile).1 with
      | .ok _ => .ok ()
      | .error _ => .error (.noSuchProfile id)

/-- The merge of the settings; without a patch of them there is none. -/
def settingsMerge (patch : FlatPatch) : Option (Change SettingsData) :=
  if patch.globalPatch.isEmpty && patch.otherPatch.isEmpty then none
  else some fun settings =>
    match mergeSettings patch.globalPatch patch.otherPatch settings with
    | some merged => .ok merged
    | none => .error "设置合并后校验失败".toList

/-- `PATCH /api/config` with fields of a profile. What a check loads is loaded again later. -/
def patchProfile (cipher : Cipher) (checks : ProfileChecks N) (nonce : Nonce)
    (members : List (String × Json)) (io : TxIo) (dir : ProfilesDir N) :
    Except SaveError Unit × ProfilesDir N :=
  let checked : Except PatchError FlatPatch := do
    let patch ← sortPatch {} members
    checkSwitch members io dir
    checkPort patch.globalPatch
    checkTexts patch.profilePatch
    let id := patchedId members (dir.loadSettings io.readSettings).1
    match (dir.loadProfile id io.readProfile).1 with
    | .ok _ => return patch
    | .error _ => throw (.profileUnreadable id)
  match checked with
  | .error e => (.error (.patch e), dir)
  | .ok patch =>
    let id := patchedId members (dir.loadSettings io.readSettings).1
    match dir.modifyProfileAndSettingsTx id (mergePatch cipher checks nonce patch.profilePatch)
        (settingsMerge patch) io with
    | (.error e, dir) => (.error (.config e), dir)
    | (.ok (.error message), dir) => (.error (.badRequest message), dir)
    | (.ok (.ok ()), dir) => (.ok (), dir)

/-- The password in the runtime configuration of a profile. -/
def passwordOf (cipher : Cipher) (dir : ProfilesDir N) (id : String) : Option String :=
  (dir.profileData id).map fun profile => runtimePassword cipher profile.fields.password

/-! ## Commits -/

variable {dir dir' : ProfilesDir N} {checks : ProfileChecks N} {io : TxIo} {id : String}

theorem profileData_saveLocked {profile : Profile N} {failure : Option Text}
    (h : dir.saveProfileLocked profile failure = (.ok (), dir')) :
    dir'.profileData profile.id = some profile := by
  unfold ConfigDir.saveProfileLocked at h
  split at h
  · cases h
  · cases h
    rw [ConfigDir.profileData_putProfile, if_pos rfl]

/-- What is committed to a profile is what the merge made of the profile in its file. -/
structure Merged (dir dir' : ProfilesDir N) (id : String)
    (merge : Profile N → Except Text (Profile N)) (old new : Profile N) : Prop where
  loaded : dir.profileData id = some old
  merged : merge old = .ok new
  stored : dir'.profileData id = some { new with id }

theorem merged_of_profileTx {f : Profile N → Except Text (Profile N)} {profile : Profile N}
    (h : modifyProfileTx dir id f io = (.ok (.ok profile), dir')) :
    ∃ old new, Merged dir dir' id f old new := by
  have hloaded := (dir.loadProfile_spec id io.readProfile).2
  unfold modifyProfileTx at h
  split at h
  · cases h
  split at h
  · cases h
  next old dir₁ hload =>
    rw [hload] at hloaded
    split at h
    · cases h
    next new hmerge =>
      split at h
      · cases h
      next dir₂ hsave =>
        cases h
        exact ⟨old, new, hloaded old rfl, hmerge, profileData_saveLocked hsave⟩

theorem profileData_commitBoth {profile old : Profile N} {settings : SettingsData}
    (h : dir.commitBoth profile settings old io = (.ok (.ok ()), dir')) :
    dir'.profileData profile.id = some profile := by
  unfold ConfigDir.commitBoth at h
  split at h
  · cases h
  next dir₁ hsave =>
    have hstored := profileData_saveLocked hsave
    split at h
    next dir₂ hwrite =>
      cases h
      unfold ConfigDir.writeSettingsLocked at hwrite
      split at hwrite
      · cases hwrite
      · cases hwrite
        exact hstored
    · split at h <;> cases h

theorem merged_of_bothTx {f : Profile N → Except Text (Profile N)}
    {merge : Option (Change SettingsData)}
    (h : dir.modifyProfileAndSettingsTx id f merge io = (.ok (.ok ()), dir')) :
    ∃ old new, Merged dir dir' id f old new := by
  have hloaded := (dir.loadProfile_spec id io.readProfile).2
  unfold ConfigDir.modifyProfileAndSettingsTx at h
  split at h
  · cases h
  split at h
  · cases h
  next old dir₁ hload =>
    rw [hload] at hloaded
    split at h
    · cases h
    next new hmerge =>
      refine ⟨old, new, hloaded old rfl, hmerge, ?_⟩
      cases merge with
      | none =>
        dsimp only at h
        split at h
        · cases h
        next dir₂ hsave =>
          cases h
          exact profileData_saveLocked hsave
      | some merge =>
        dsimp only at h
        split at h
        · cases h
        · exact profileData_commitBoth h

/-! ## What becomes of the password -/

theorem apply_password {o : ProfileOptions N} {f f' : ProfileFields N}
    (h : o.apply checks f = .ok f') : f'.password = f.password := by
  obtain ⟨authUrl, -, h⟩ := bind_eq_ok.mp h
  obtain ⟨triggerUrl, -, h⟩ := bind_eq_ok.mp h
  obtain ⟨-, -, h⟩ := bind_eq_ok.mp h
  obtain ⟨-, -, h⟩ := bind_eq_ok.mp h
  obtain ⟨-, -, h⟩ := bind_eq_ok.mp h
  cases h
  rfl

theorem mergeUpdate_password {body : ProfileUpdateBody N} {encrypted : String}
    {old new : Profile N} (hclear : body.clearPassword = false)
    (h : mergeUpdate checks body (some encrypted) old = .ok new) :
    new.fields.password = encrypted := by
  obtain ⟨fields, hfields, h⟩ := bind_eq_ok.mp h
  cases h
  rw [apply_password hfields, hclear]
  rfl

theorem mergePatch_password {cipher : Cipher} {nonce : Nonce} {patch : List (String × Json)}
    {old new : Profile N} (h : mergePatch cipher checks nonce patch old = .ok new) :
    patchedPassword cipher nonce (patch.lookup "password") old.fields.password =
      .ok new.fields.password := by
  obtain ⟨network, -, h⟩ := bind_eq_ok.mp h
  obtain ⟨authUrl, -, h⟩ := bind_eq_ok.mp h
  obtain ⟨triggerUrl, -, h⟩ := bind_eq_ok.mp h
  obtain ⟨channel, -, h⟩ := bind_eq_ok.mp h
  obtain ⟨-, -, h⟩ := bind_eq_ok.mp h
  obtain ⟨password, hpassword, h⟩ := bind_eq_ok.mp h
  obtain ⟨-, -, h⟩ := bind_eq_ok.mp h
  cases h
  exact hpassword

theorem add_password {patch patch' : FlatPatch} {name : String} {v : Json}
    (hadd : patch.add name v = .ok patch') : patch'.profilePatch.lookup "password" =
      if "password" = name then some v else patch.profilePatch.lookup "password" := by
  unfold FlatPatch.add at hadd
  split at hadd
  next heq =>
    cases hadd
    rw [heq, if_neg (by decide)]
  split at hadd
  · cases hadd
    exact Json.lookup_setMember _ _ _ _
  next hprofile =>
    -- the name is no field of a profile, so it is another one
    have hother : "password" ≠ name := fun heq => hprofile (heq ▸ by decide)
    rw [if_neg hother]
    split at hadd
    · split at hadd <;> cases hadd
      rfl
    · split at hadd <;> cases hadd <;> rfl

/-! ## What is used -/

/-- What the runtime configuration has after each way, for a password that is not empty. -/
structure PasswordsUsed (cipher : Cipher) (checks : ProfileChecks N) (nonce : Nonce) : Prop where
  put : ∀ {id io dir dir'} {body : ProfileUpdateBody N} {s : String}, body.password = some s →
    s ≠ "" → body.clearPassword = false →
    updateProfile cipher checks nonce id body io dir = (.ok (), dir') →
    passwordOf cipher dir' id = some s
  post : ∀ {id io dir dir'} {body : ProfileCreateBody N}, body.password ≠ "" →
    createProfile cipher checks nonce id body io dir = (.ok (), dir') →
    passwordOf cipher dir' (slugifyId (body.targetId id)) = some body.password
  /-- A text that looks stored is not encrypted: it is taken when it can be decrypted, and else the
      old password stays. -/
  patch : ∀ {members io} {dir dir' : ProfilesDir N} {s : String},
    (members.map Prod.fst).Nodup → members.lookup "password" = some (.str s) → s ≠ "" →
    patchProfile cipher checks nonce members io dir = (.ok (), dir') →
    ∃ old, dir.profileData (patchedId members (dir.loadSettings io.readSettings).1) = some old ∧
      passwordOf cipher dir' (patchedId members (dir.loadSettings io.readSettings).1) =
        some (if isEncrypted s then
            (decryptCore cipher s).getD (runtimePassword cipher old.fields.password)
          else s)

theorem passwordOf_updateProfile {cipher : Cipher} (hcipher : cipher.RoundTrips) {nonce : Nonce}
    {body : ProfileUpdateBody N} {s : String} (hpassword : body.password = some s) (hne : s ≠ "")
    (hclear : body.clearPassword = false)
    (h : updateProfile cipher checks nonce id body io dir = (.ok (), dir')) :
    passwordOf cipher dir' id = some s := by
  have hencrypted : (body.password.filter fun p => !p.isEmpty).map (encryptPassword cipher nonce) =
      some (encryptPassword cipher nonce s) := by
    rw [hpassword, Option.filter_some_pos (by simpa using hne)]
    rfl
  unfold updateProfile at h
  rw [hencrypted] at h
  dsimp only at h
  split at h
  · cases h
  · cases h
  next profile dir₁ htx =>
    cases h
    obtain ⟨old, new, hmerged⟩ := merged_of_profileTx htx
    rw [passwordOf, hmerged.stored, Option.map_some, mergeUpdate_password hclear hmerged.merged,
      runtimePassword_encrypt hcipher nonce hne]

theorem passwordOf_createProfile {cipher : Cipher} (hcipher : cipher.RoundTrips) {nonce : Nonce}
    {body : ProfileCreateBody N} (hne : body.password ≠ "")
    (h : createProfile cipher checks nonce id body io dir = (.ok (), dir')) :
    passwordOf cipher dir' (slugifyId (body.targetId id)) = some body.password := by
  have hgiven : body.password.isEmpty = false := by simpa using hne
  unfold createProfile at h
  dsimp only at h
  split at h
  · cases h
  split at h
  · cases h
  next fields hfields =>
    have hpassword := apply_password hfields
    split at h
    · cases h
    split at h
    · cases h
    unfold createProfileAtomic at h
    split at h
    · cases h
    split at h
    · cases h
    split at h
    · cases h
    next dir₁ hsave =>
      cases h
      rw [passwordOf, profileData_saveLocked hsave, Option.map_some, hpassword]
      simp only [hgiven, Bool.false_eq_true, if_false, runtimePassword_encrypt hcipher nonce hne]

/-- The password that the settings page saves. -/
theorem runtimePassword_patched {cipher : Cipher} (hcipher : cipher.RoundTrips) {nonce : Nonce}
    {s old new : String} (hne : s ≠ "")
    (h : patchedPassword cipher nonce (some (.str s)) old = .ok new) :
    runtimePassword cipher new = if isEncrypted s then
        (decryptCore cipher s).getD (runtimePassword cipher old) else s := by
  have hgiven : s.isEmpty = false := by simpa using hne
  rw [patchedPassword, hgiven, if_neg Bool.false_ne_true] at h
  cases h
  rcases savePassword_cases nonce hne old with ⟨hplain, hsaved⟩ |
    ⟨hlooks, plain, hcore, hsaved, hused⟩ | ⟨hlooks, hcore, hsaved⟩
  · rw [hsaved, hplain, if_neg Bool.false_ne_true, runtimePassword_encrypt hcipher nonce hne]
  · rw [hsaved, hlooks, if_pos rfl, hused, hcore, Option.getD_some]
  · rw [hsaved, hlooks, if_pos rfl, hcore, Option.getD_none]

theorem passwordOf_patchProfile {cipher : Cipher} (hcipher : cipher.RoundTrips) {nonce : Nonce}
    {members : List (String × Json)} {s : String} (hnames : (members.map Prod.fst).Nodup)
    (hpassword : members.lookup "password" = some (.str s)) (hne : s ≠ "")
    (h : patchProfile cipher checks nonce members io dir = (.ok (), dir')) :
    ∃ old, dir.profileData (patchedId members (dir.loadSettings io.readSettings).1) = some old ∧
      passwordOf cipher dir' (patchedId members (dir.loadSettings io.readSettings).1) =
        some (if isEncrypted s then
            (decryptCore cipher s).getD (runtimePassword cipher old.fields.password)
          else s) := by
  unfold patchProfile at h
  dsimp only at h
  split at h
  · cases h
  next patch hchecked =>
    -- the checks let the sorted patch through
    obtain ⟨sorted, hsort, hchecked⟩ := bind_eq_ok.mp hchecked
    obtain ⟨-, -, hchecked⟩ := bind_eq_ok.mp hchecked
    obtain ⟨-, -, hchecked⟩ := bind_eq_ok.mp hchecked
    obtain ⟨-, -, hchecked⟩ := bind_eq_ok.mp hchecked
    obtain rfl : sorted = patch := by
      split at hchecked
      · cases hchecked
        rfl
      · cases hchecked
    split at h
    · cases h
    · cases h
    next dir₁ htx =>
      cases h
      obtain ⟨old, new, hmerged⟩ := merged_of_bothTx htx
      have hgiven : sorted.profilePatch.lookup "password" = some (.str s) := by
        rw [lookup_sortPatch FlatPatch.profilePatch add_password hnames hsort, hpassword]
        rfl
      have hsaved := mergePatch_password hmerged.merged
      rw [hgiven] at hsaved
      refine ⟨old, hmerged.loaded, ?_⟩
      rw [passwordOf, hmerged.stored, Option.map_some, runtimePassword_patched hcipher hne hsaved]

/-- A cipher that turns a text around and adds a tag. -/
def turningCipher : Cipher where
  encrypt _ plain := plain.reverse ++ List.replicate 16 0
  decrypt _ sealed :=
    if sealed.drop (sealed.length - 16) = List.replicate 16 0 then
      some (sealed.take (sealed.length - 16)).reverse
    else none

theorem turningCipher_roundTrips : turningCipher.RoundTrips := by
  intro nonce plain
  have hlen : (plain.reverse ++ List.replicate 16 (0 : UInt8)).length - 16 =
      plain.reverse.length := by
    rw [List.length_append, List.length_replicate, Nat.add_sub_cancel]
  simp only [turningCipher, hlen, List.drop_left, List.take_left, List.reverse_reverse, if_true]

def zeroNonce : Nonce := ⟨List.replicate 12 0, rfl⟩

/-- Every check passes. -/
def noChecks : ProfileChecks Unit where
  parse _ := none
  network _ := .ok ()
  pinned _ := false
  readNetwork _ := some ()
  bindTask _ _ _ := .ok ()

/-- Whatever is submitted is used. -/
structure AsSubmitted (cipher : Cipher) (checks : ProfileChecks N) (nonce : Nonce) (s : String) :
    Prop where
  put : ∀ id io (dir dir' : ProfilesDir N) (body : ProfileUpdateBody N), body.password = some s →
    updateProfile cipher checks nonce id body io dir = (.ok (), dir') →
    passwordOf cipher dir' id = some s
  post : ∀ id io (dir dir' : ProfilesDir N) (body : ProfileCreateBody N), body.password = s →
    createProfile cipher checks nonce id body io dir = (.ok (), dir') →
    passwordOf cipher dir' (slugifyId (body.targetId id)) = some s
  patch : ∀ members io (dir dir' : ProfilesDir N), (members.map Prod.fst).Nodup →
    members.lookup "password" = some (.str s) →
    patchProfile cipher checks nonce members io dir = (.ok (), dir') →
    passwordOf cipher dir' (patchedId members (dir.loadSettings io.readSettings).1) = some s

/-- One profile without a password. -/
def defaultOnly : ProfilesDir Unit where
  profiles id := if id = "default" then some ⟨⟨"default", {}⟩, 0⟩ else none
  settings := ⟨SettingsData.default, 0⟩
  profileCache _ := none
  settingsCache := ⟨none, none⟩
  clock := 0
  coherent := fun _ _ _ _ h => by cases h

end CampusAuth.Web
