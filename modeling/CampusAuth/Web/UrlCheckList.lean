import CampusAuth.Web.SettingsPatch
import Mathlib.Data.List.Induction
import Mathlib.Data.List.TakeWhile

/- The list of checked URLs over a `PATCH /api/config`.

   The list is stored in two fields, the URLs and a table of what is expected of them. The patch
   replaces the first and is merged into the second, where the entries of earlier lists stay. So
   the list comes back as long as no URL that is given without an expected response still has one
   in the table (`patched_list_iff`). -/
namespace CampusAuth.Web
open Lib Config
open Lib.Json (asStr asU64)

/-- An item of the list in the request. -/
structure CheckUrl where
  url : String
  response : Option String
  deriving DecidableEq

def CheckUrl.text (item : CheckUrl) : String :=
  match item.response with
  | some response => item.url ++ "|" ++ response
  | none => item.url

/-- Nothing to trim, and no bar in a URL, which is not empty. -/
structure CheckUrl.Plain (item : CheckUrl) : Prop where
  nonempty : item.url ≠ ""
  noBar : '|' ∉ item.url.toList
  url : trim item.url = item.url
  response : ∀ r ∈ item.response, trim r = r

/-- The member of the table for an item. -/
def CheckUrl.expected (item : CheckUrl) : Option (String × Json) :=
  item.response.map fun r => (item.url, .str r)

/-! ## The list in the request -/

theorem splitCheckUrl_text {item : CheckUrl} (h : item.Plain) :
    splitCheckUrl item.text = (item.url, item.response) := by
  obtain ⟨url, response⟩ := item
  unfold splitCheckUrl CheckUrl.text
  cases response with
  | none =>
    rw [splitOnce_of_not_mem h.noBar]
    exact congrArg (·, none) h.url
  | some r =>
    have hlist : (url ++ "|" ++ r).toList = url.toList ++ '|' :: r.toList := by simp
    rw [hlist, splitOnce_append h.noBar]
    exact congrArg₂ (fun u v => (u, some v)) h.url (h.response r rfl)

/-- Distinct URLs: the list and the table are the items one after the other. -/
theorem splitCheckUrls_eq {items : List CheckUrl} (hplain : ∀ item ∈ items, item.Plain)
    (hurls : (items.map CheckUrl.url).Nodup) :
    splitCheckUrls (items.map CheckUrl.text) =
      (items.map CheckUrl.url, items.filterMap CheckUrl.expected) := by
  unfold splitCheckUrls
  rw [List.foldl_map]
  -- from the end: the table has no entry yet for the last URL
  induction items using List.reverseRecOn with
  | nil => rfl
  | append_singleton items item ih =>
    rw [List.map_append, List.nodup_append] at hurls
    have hnew : ((items.filterMap CheckUrl.expected).any fun m => m.1 == item.url) = false := by
      rw [Bool.eq_false_iff]
      intro hany
      obtain ⟨m, hm, heq⟩ := List.any_eq_true.mp hany
      obtain ⟨other, hother, hexpected⟩ := List.mem_filterMap.mp hm
      obtain ⟨r, -, rfl⟩ := Option.map_eq_some_iff.mp hexpected
      exact hurls.2.2 other.url (List.mem_map_of_mem hother) item.url (by simp) (eq_of_beq heq)
    rw [List.foldl_append, ih (fun i hi => hplain i (List.mem_append_left _ hi)) hurls.1]
    rw [List.foldl_cons, List.foldl_nil,
      splitCheckUrl_text (hplain item (List.mem_append_right _ (List.mem_singleton_self _)))]
    rw [List.map_append, List.filterMap_append]
    obtain ⟨url, response⟩ := item
    cases response with
    | none => simp [CheckUrl.expected]
    | some r =>
      dsimp only
      rw [setMember, if_neg (by rw [hnew]; decide)]
      rfl

theorem lookup_expected_of_not_mem {items : List CheckUrl} {url : String}
    (h : url ∉ items.map CheckUrl.url) : (items.filterMap CheckUrl.expected).lookup url = none := by
  rw [List.lookup_eq_none_iff]
  intro m hm
  obtain ⟨other, hother, hexpected⟩ := List.mem_filterMap.mp hm
  obtain ⟨r, -, rfl⟩ := Option.map_eq_some_iff.mp hexpected
  exact bne_iff_ne.mpr fun heq => h (List.mem_map.mpr ⟨other, hother, heq.symm⟩)

/-- What the table of the request has for the URL of an item. -/
theorem lookup_expected {items : List CheckUrl} (hurls : (items.map CheckUrl.url).Nodup)
    {item : CheckUrl} (hitem : item ∈ items) :
    (items.filterMap CheckUrl.expected).lookup item.url = item.response.map .str := by
  induction items with
  | nil => cases hitem
  | cons first items ih =>
    rw [List.map_cons, List.nodup_cons] at hurls
    obtain ⟨url, response⟩ := first
    rcases List.mem_cons.mp hitem with rfl | hmem
    · cases response with
      | none =>
        have hlater := lookup_expected_of_not_mem hurls.1
        exact hlater
      | some r => exact (lookup_cons_ite _ _ _ _).trans (if_pos rfl)
    · have hne : item.url ≠ url := fun heq => hurls.1 (heq ▸ List.mem_map.mpr ⟨item, hmem, rfl⟩)
      cases response with
      | none => exact ih hurls.2 hmem
      | some r => exact ((lookup_cons_ite _ _ _ _).trans (if_neg hne)).trans (ih hurls.2 hmem)

theorem expected_names (items : List CheckUrl) :
    ((items.filterMap CheckUrl.expected).map Prod.fst).Sublist (items.map CheckUrl.url) := by
  induction items with
  | nil => exact List.nil_sublist _
  | cons item items ih =>
    obtain ⟨url, response⟩ := item
    cases response with
    | none => exact ih.cons url
    | some r => exact ih.cons_cons url

/-! ## The patch of the section -/

theorem lookup_given {α : Type} (name key : String) (value : α → Json) (o : Option α) :
    (given name value o).lookup key = if key = name then o.map value else none := by
  cases o with
  | none => exact (ite_self none).symm
  | some a => exact lookup_cons_ite [] key name (value a)

theorem given_names {α : Type} (name : String) (value : α → Json) (o : Option α) :
    ((given name value o).map Prod.fst).Sublist [name] := by
  cases o with
  | none => exact List.nil_sublist _
  | some a => exact List.Sublist.refl _

theorem backendPatch_nodup (patch : MonitorPatch) :
    (patch.intoBackendPatch.map Prod.fst).Nodup := by
  have hsub : (patch.intoBackendPatch.map Prod.fst).Sublist
      (["check_interval"] ++ ["tcp_targets"] ++ ["http_targets"] ++ ["url_targets"] ++
        ["url_expected_responses"] ++ ["url_enabled"] ++ ["tcp_enabled"] ++ ["http_enabled"] ++
        ["strict_login_mode"] ++ ["disable_proxy"] ++ ["tcp_timeout"] ++ ["post_login_delay"]) := by
    unfold MonitorPatch.intoBackendPatch
    simp only [List.map_append]
    repeat' apply List.Sublist.append
    all_goals exact given_names ..
  exact hsub.nodup (by decide)

/-- Settings before and after a patch of the monitor section. -/
structure MonitorPatched (b : List (String × Json)) (s t : SettingsData)
    (ms ms' : List (String × Json)) : Prop where
  before : s.globalSection "monitor" = some (.obj ms)
  after : t.globalSection "monitor" = some (.obj ms')
  fields : Kind.HasFields monitorSettings ms
  fields' : Kind.HasFields monitorSettings ms'
  lookup : ∀ name, ms'.lookup name = (monitorSettings.lookup name).bind fun k =>
    k.readFrom (merged (ms.lookup name) (b.lookup name))
  top : ∀ name, name ≠ "global" → t.value.get name = s.value.get name
  sections : ∀ name, name ≠ "monitor" → t.globalSection name = s.globalSection name

theorem monitorPatched {b : List (String × Json)} (hb : (b.map Prod.fst).Nodup)
    {s t : SettingsData} (h : mergeSettings [("monitor", .obj b)] [] s = some t) :
    ∃ ms ms', MonitorPatched b s t ms ms' := by
  obtain ⟨vs, globals, hs⟩ := opened s
  obtain ⟨vs', globals', ht⟩ := opened t
  obtain ⟨_, hvalue, hlookup⟩ := lookup_mergeSettings hs (by exact List.nodup_nil) h
  cases ht.value.symm.trans hvalue
  -- the global section, and in it the monitor section
  have hglobal : (Kind.struct globalConfig).read
      (.obj (mergeMembers globals [("monitor", .obj b)])) = some (.obj globals') :=
    (hlookup "global").symm.trans ht.global
  obtain ⟨members, _, hmembers, heq, hglobals⟩ := Kind.read_struct_eq hglobal
  cases hmembers
  cases heq
  obtain ⟨m, hm, hmread⟩ := hs.globalFields.field "monitor" (.struct monitorSettings) rfl
  obtain ⟨m', hm', hmread'⟩ := ht.globalFields.field "monitor" (.struct monitorSettings) rfl
  obtain ⟨ms, rfl, hfields⟩ := Kind.hasFields_of_read hmread
  obtain ⟨ms', rfl, hfields'⟩ := Kind.hasFields_of_read hmread'
  have hsection : ∀ name, (mergeMembers globals [("monitor", .obj b)]).lookup name =
      merged (globals.lookup name) (if name = "monitor" then some (.obj b) else none) := by
    intro name
    rw [lookup_mergeMembers _ _ (by simp), lookup_cons_ite]
    rfl
  have hmonitor : (Kind.struct monitorSettings).read (.obj (mergeMembers ms b)) =
      some (.obj ms') := by
    have hread := (hglobals "monitor").symm.trans hm'
    rw [hsection, hm, if_pos rfl] at hread
    exact hread
  obtain ⟨members, _, hmembers, heq, hms⟩ := Kind.read_struct_eq hmonitor
  cases hmembers
  cases heq
  refine ⟨ms, ms', ?_, ?_, hfields, hfields', fun name => ?_, fun name hname => ?_, fun name hname => ?_⟩
  · unfold SettingsData.globalSection
    rw [hs.value]
    show (vs.lookup "global").bind _ = _
    rw [hs.global]
    exact hm
  · unfold SettingsData.globalSection
    rw [ht.value]
    show (vs'.lookup "global").bind _ = _
    rw [ht.global]
    exact hm'
  · rw [hms, lookup_mergeMembers _ _ hb]
  · rw [hs.value, ht.value]
    show vs'.lookup name = vs.lookup name
    rw [hlookup]
    unfold patchedTop
    rw [if_neg hname]
    exact hs.fields.same name
  · unfold SettingsData.globalSection
    rw [hs.value, ht.value]
    show (vs'.lookup "global").bind _ = (vs.lookup "global").bind _
    rw [hs.global, ht.global]
    show globals'.lookup name = globals.lookup name
    rw [hglobals, hsection, if_neg hname]
    exact hs.globalFields.same name

/-- A request with nothing but a monitor section. -/
theorem patchSettings_monitor {env : PatchEnv} {store t : ConfigStore} {m : Json}
    {patch : MonitorPatch} (hm : readMonitorPatch m = some patch)
    (h : patchSettings env store (.obj [("monitor", m)]) = .ok t) :
    mergeSettings [("monitor", .obj patch.intoBackendPatch)] [] store.settings = some t.settings ∧
      SettingsData.ofValue t.file = some t.settings := by
  obtain ⟨flat, hsorted, -, -, -, hsettings, -⟩ := accepted h
  have hflat : sortPatch {} [("monitor", m)] =
      .ok { globalPatch := [("monitor", .obj patch.intoBackendPatch)] } := by
    have hadd : FlatPatch.add {} "monitor" m =
        .ok { globalPatch := [("monitor", .obj patch.intoBackendPatch)] } := by
      simp [FlatPatch.add, hm, profileKeys, setMember]
    unfold sortPatch
    rw [hadd]
    rfl
  cases hflat.symm.trans hsorted
  rcases hsettings with ⟨hnone, -, -⟩ | ⟨hmerge, hfile⟩
  · cases hnone
  · exact ⟨hmerge, hfile ▸ SettingsData.ofValue_value t.settings⟩

/-! ## The list in the response -/

/-- `GET /api/config`, its monitor section. -/
def getMonitor (store : ConfigStore) : Json :=
  monitorBackendToFrontend ((store.settings.globalSection "monitor").getD .null)

def monitorField (s : SettingsData) (name : String) : Option Json :=
  (s.globalSection "monitor").bind (·.get name)

/-- The stored fields that the request speaks of. -/
def MonitorPatch.mentions (patch : MonitorPatch) (name : String) : Prop :=
  (patch.intoBackendPatch.lookup name).isSome ∧
    (name = "url_enabled" → patch.enableUrlCheck.isSome)

/-- What the request does not speak of is as it was, except that a list that comes without the
    switch of the URL checks turns them on, and an empty one off. -/
structure Unmentioned (patch : MonitorPatch) (s t : SettingsData) : Prop where
  top : ∀ name, name ≠ "global" → t.value.get name = s.value.get name
  sections : ∀ name, name ≠ "monitor" → t.globalSection name = s.globalSection name
  fields : ∀ name, ¬patch.mentions name →
    monitorField t name = if name = "url_enabled" then
        (patch.urlEnabled.map Json.bool).or (monitorField s name)
      else monitorField s name

/-- No URL that is given without an expected response has one in the stored table. -/
def NoLeftover (s : SettingsData) (items : List CheckUrl) : Prop :=
  ∀ item ∈ items, item.response = none →
    (monitorField s "url_expected_responses").bind (·.get item.url) = none

theorem lookup_backendPatch (patch : MonitorPatch) {items : List CheckUrl}
    (hitems : patch.urlCheckUrls = some (items.map CheckUrl.text))
    (hplain : ∀ item ∈ items, item.Plain) (hurls : (items.map CheckUrl.url).Nodup) :
    patch.intoBackendPatch.lookup "url_targets" = some (jsonTexts (items.map CheckUrl.url)) ∧
    patch.intoBackendPatch.lookup "url_expected_responses" =
      some (.obj (items.filterMap CheckUrl.expected)) := by
  have hsplit := splitCheckUrls_eq hplain hurls
  unfold MonitorPatch.intoBackendPatch
  simp [List.lookup_append, lookup_given, hitems, hsplit]

theorem lookup_urlEnabled (patch : MonitorPatch) :
    patch.intoBackendPatch.lookup "url_enabled" = patch.urlEnabled.map Json.bool := by
  unfold MonitorPatch.intoBackendPatch
  simp [List.lookup_append, lookup_given]

/-! ## Put and get -/

theorem jsonTexts_inj {l l' : List String} : jsonTexts l = jsonTexts l' ↔ l = l' := by
  constructor
  · intro h
    have hread := congrArg (Json.readVec asStr) h
    exact Option.some.inj ((Kind.mapM_str l).symm.trans (hread.trans (Kind.mapM_str l')))
  · rintro rfl
    rfl

/-- How an item comes back when the table had `old` for its URL. -/
def CheckUrl.shown (item : CheckUrl) (old : Option Json) : String :=
  match (merged old (item.response.map .str)).bind asStr with
  | some expected => item.url ++ "|" ++ expected
  | none => item.url

theorem shown_iff {item : CheckUrl} {old : Option Json}
    (hold : ∀ j ∈ old, (asStr j).isSome) :
    item.shown old = item.text ↔ (item.response = none → old = none) := by
  obtain ⟨url, response⟩ := item
  unfold CheckUrl.shown CheckUrl.text
  cases response with
  | some r => exact iff_of_true rfl nofun
  | none =>
    cases old with
    | none => exact iff_of_true rfl fun _ => rfl
    | some j =>
      obtain ⟨e, he⟩ := Option.isSome_iff_exists.mp (hold j rfl)
      refine iff_of_false ?_ fun h => nomatch h rfl
      show (match asStr j with
        | some expected => url ++ "|" ++ expected
        | none => url) ≠ url
      rw [he]
      intro heq
      have hlen := congrArg (fun s => s.toList.length) heq
      simp at hlen

variable {b : List (String × Json)} {s t : SettingsData} {ms ms' : List (String × Json)}
  {items : List CheckUrl}

/-- The table of the stored settings. -/
theorem storedTable (h : MonitorPatched b s t ms ms') : ∃ old,
    ms.lookup "url_expected_responses" = some (.obj old) ∧ ∀ m ∈ old, (asStr m.2).isSome := by
  obtain ⟨v, hv, hread⟩ := h.fields.field "url_expected_responses" _ rfl
  cases v with
  | obj old =>
    rw [Kind.read] at hread
    split at hread
    next hall => exact ⟨old, hv, fun m hm => List.all_eq_true.mp hall m hm⟩
    · cases hread
  | null | bool | number | str | arr => cases hread

theorem read_textMap {d : List (String × String)} {members : List (String × Json)} {v : Json}
    (h : (Kind.textMap d).read (.obj members) = some v) : v = .obj members := by
  rw [Kind.read] at h
  split at h
  · exact (Option.some.inj h).symm
  · cases h

theorem urlCheckUrls_patched (h : MonitorPatched b s t ms ms')
    (htargets : b.lookup "url_targets" = some (jsonTexts (items.map CheckUrl.url)))
    (htable : b.lookup "url_expected_responses" = some (.obj (items.filterMap CheckUrl.expected)))
    (hurls : (items.map CheckUrl.url).Nodup) {old : List (String × Json)}
    (hold : ms.lookup "url_expected_responses" = some (.obj old)) :
    urlCheckUrls (.obj ms') = items.map fun item => item.shown (old.lookup item.url) := by
  have htargets' : ms'.lookup "url_targets" = some (jsonTexts (items.map CheckUrl.url)) := by
    rw [h.lookup, htargets]
    show ((jsonTexts (items.map CheckUrl.url)).readVec asStr).map (fun _ => _) = _
    unfold jsonTexts Json.readVec
    dsimp only
    rw [Kind.mapM_str]
    rfl
  have htable' : ms'.lookup "url_expected_responses" =
      some (.obj (mergeMembers old (items.filterMap CheckUrl.expected))) := by
    obtain ⟨v, hv, -⟩ := h.fields'.field "url_expected_responses" _ rfl
    obtain ⟨d, hd⟩ : ∃ d, monitorSettings.lookup "url_expected_responses" = some (.textMap d) :=
      ⟨_, rfl⟩
    have hread := h.lookup "url_expected_responses"
    rw [hv, htable, hold, hd] at hread
    rw [hv]
    exact congrArg some (read_textMap (d := d) hread.symm)
  have hnew : ((items.filterMap CheckUrl.expected).map Prod.fst).Nodup :=
    (expected_names items).nodup hurls
  unfold urlCheckUrls
  show List.map _ (((ms'.lookup "url_targets").bind (Json.readVec asStr)).getD []) = _
  rw [htargets']
  have hread : (some (jsonTexts (items.map CheckUrl.url))).bind (Json.readVec asStr) =
      some (items.map CheckUrl.url) := Kind.mapM_str _
  rw [hread, Option.getD_some, List.map_map]
  refine List.map_congr_left fun item hitem => ?_
  show (match ((ms'.lookup "url_expected_responses").bind (·.get item.url)).bind asStr with
    | some expected => item.url ++ "|" ++ expected
    | none => item.url) = _
  rw [htable']
  show (match ((mergeMembers old _).lookup item.url).bind asStr with
    | some expected => item.url ++ "|" ++ expected
    | none => item.url) = _
  rw [lookup_mergeMembers _ _ hnew, lookup_expected hurls hitem]
  rfl

theorem unmentioned {patch : MonitorPatch} (h : MonitorPatched patch.intoBackendPatch s t ms ms') :
    Unmentioned patch s t := by
  refine ⟨h.top, h.sections, fun name hname => ?_⟩
  have hlookup := h.lookup name
  have hsame := h.fields.same name
  unfold monitorField
  rw [h.before, h.after]
  show ms'.lookup name = if name = "url_enabled" then _ else ms.lookup name
  cases hb : patch.intoBackendPatch.lookup name with
  | none =>
    rw [hb] at hlookup
    rw [hlookup]
    split
    next heq =>
      rw [heq, lookup_urlEnabled] at hb
      rw [hb]
      exact hsame
    · exact hsame
  | some v =>
    have henabled : name = "url_enabled" := by
      by_contra hne
      exact hname ⟨by rw [hb]; rfl, fun heq => absurd heq hne⟩
    subst henabled
    rw [if_pos rfl]
    obtain ⟨on, hon, rfl⟩ := Option.map_eq_some_iff.mp ((lookup_urlEnabled patch).symm.trans hb)
    rw [hlookup, hb, hon]
    rfl

/-- After an accepted patch of the monitor section that has a list, the list of the response is
    that of the request exactly if the stored table has no entry for a URL that comes without an
    expected response; and what the patch does not speak of is unchanged. -/
theorem patched_list_iff (env : PatchEnv) (store t : ConfigStore) (m : Json) (patch : MonitorPatch)
    (items : List CheckUrl) (hm : readMonitorPatch m = some patch)
    (hitems : patch.urlCheckUrls = some (items.map CheckUrl.text))
    (hplain : ∀ item ∈ items, item.Plain) (hurls : (items.map CheckUrl.url).Nodup)
    (h : patchSettings env store (.obj [("monitor", m)]) = .ok t) :
    ((getMonitor t).get "url_check_urls" = some (jsonTexts (items.map CheckUrl.text)) ↔
      NoLeftover store.settings items) ∧
    Unmentioned patch store.settings t.settings ∧ SettingsData.ofValue t.file = some t.settings := by
  obtain ⟨hmerge, hfile⟩ := patchSettings_monitor hm h
  obtain ⟨ms, ms', hpatched⟩ := monitorPatched (backendPatch_nodup patch) hmerge
  obtain ⟨htargets, htable⟩ := lookup_backendPatch patch hitems hplain hurls
  obtain ⟨old, hold, htexts⟩ := storedTable hpatched
  refine ⟨?_, unmentioned hpatched, hfile⟩
  have hshown : (getMonitor t).get "url_check_urls" =
      some (jsonTexts (items.map fun item => item.shown (old.lookup item.url))) := by
    unfold getMonitor
    rw [hpatched.after, Option.getD_some]
    show some (jsonTexts (urlCheckUrls (.obj ms'))) = _
    rw [urlCheckUrls_patched hpatched htargets htable hurls hold]
  have hleft : NoLeftover store.settings items ↔
      ∀ item ∈ items, item.response = none → old.lookup item.url = none := by
    unfold NoLeftover monitorField
    rw [hpatched.before]
    show (∀ item ∈ items, item.response = none →
      (ms.lookup "url_expected_responses").bind (·.get item.url) = none) ↔ _
    rw [hold]
    rfl
  rw [hshown, hleft, Option.some.injEq, jsonTexts_inj, List.map_inj_left]
  refine forall₂_congr fun item _ => shown_iff fun j hj => ?_
  exact htexts _ (mem_of_lookup hj)

/-- The list of an accepted patch comes back, in its order and with an expected response where
    the patch has one, unless the table still has one for a URL that comes without; what the
    patch does not speak of is unchanged, the switch of the URL checks apart. -/
theorem monitor_put_get (env : PatchEnv) (store t : ConfigStore) (m : Json) (patch : MonitorPatch)
    (items : List CheckUrl) (hm : readMonitorPatch m = some patch)
    (hitems : patch.urlCheckUrls = some (items.map CheckUrl.text))
    (hplain : ∀ item ∈ items, item.Plain) (hurls : (items.map CheckUrl.url).Nodup)
    (hleft : NoLeftover store.settings items)
    (h : patchSettings env store (.obj [("monitor", m)]) = .ok t) :
    (getMonitor t).get "url_check_urls" = some (jsonTexts (items.map CheckUrl.text)) ∧
    Unmentioned patch store.settings t.settings ∧ SettingsData.ofValue t.file = some t.settings := by
  obtain ⟨hlist, hothers⟩ := patched_list_iff env store t m patch items hm hitems hplain hurls h
  exact ⟨hlist.mpr hleft, hothers⟩

/-! ## Samples -/

def sampleItems : List CheckUrl :=
  [⟨"http://a.com/", some "OK"⟩, ⟨"http://b.com/", none⟩]

/-- A monitor section with nothing but the list. -/
def listOnly (items : List CheckUrl) : Json :=
  .obj [("url_check_urls", jsonTexts (items.map CheckUrl.text))]

def listPatch (items : List CheckUrl) : MonitorPatch where
  checkIntervalSeconds := none
  pingTargets := none
  testUrls := none
  urlCheckUrls := some (items.map CheckUrl.text)
  enableTcpCheck := none
  enableHttpCheck := none
  enableUrlCheck := none
  enableLocalCheck := none
  strictLoginMode := none
  disableProxy := none
  networkCheckTimeout := none
  postLoginDelay := none
  checkAuthUrl := none
  authUrlTargets := none
  scriptTimeout := none

theorem monitor_put_get_sample : ∃ t,
    patchSettings {} freshStore (.obj [("monitor", listOnly sampleItems)]) = .ok t ∧
    (getMonitor t).get "url_check_urls" = some (jsonTexts ["http://a.com/|OK", "http://b.com/"]) := by
  obtain ⟨t, ht⟩ : ∃ t,
      patchSettings {} freshStore (.obj [("monitor", listOnly sampleItems)]) = .ok t :=
    exists_of_isOk (by decide +kernel)
  have hplain : ∀ item ∈ sampleItems, item.Plain := by
    intro item hitem
    rcases List.mem_cons.mp hitem with rfl | hitem
    · exact ⟨by decide, by decide, rfl, fun r hr => by cases hr; rfl⟩
    · cases List.mem_singleton.mp hitem
      exact ⟨by decide, by decide, rfl, nofun⟩
  have hleft : NoLeftover freshStore.settings sampleItems := by
    intro item hitem hnone
    rcases List.mem_cons.mp hitem with rfl | hitem
    · cases hnone
    · cases List.mem_singleton.mp hitem
      rfl
  exact ⟨t, ht, (monitor_put_get {} freshStore t (listOnly sampleItems) (listPatch sampleItems)
    sampleItems (by decide +kernel) rfl hplain (by decide) hleft ht).1⟩

/-- A URL of the defaults without its expected response. -/
def bareItems : List CheckUrl := [⟨"http://captive.apple.com/hotspot-detect.html", none⟩]

/-- The response still has the old expectation for the URL, and the URL checks are on although
    the request does not mention their switch. -/
theorem leftover_comes_back : ∃ t,
    patchSettings {} freshStore (.obj [("monitor", listOnly bareItems)]) = .ok t ∧
    (getMonitor t).get "url_check_urls" ≠ some (jsonTexts (bareItems.map CheckUrl.text)) ∧
    monitorField freshStore.settings "url_enabled" = some (.bool false) ∧
    monitorField t.settings "url_enabled" = some (.bool true) := by
  obtain ⟨t, ht⟩ : ∃ t,
      patchSettings {} freshStore (.obj [("monitor", listOnly bareItems)]) = .ok t :=
    exists_of_isOk (by decide +kernel)
  have hplain : ∀ item ∈ bareItems, item.Plain := by
    intro item hitem
    cases List.mem_singleton.mp hitem
    exact ⟨by decide, by decide, rfl, nofun⟩
  obtain ⟨hlist, hothers, -⟩ := patched_list_iff {} freshStore t (listOnly bareItems)
    (listPatch bareItems) bareItems (by decide +kernel) rfl hplain (by decide) ht
  refine ⟨t, ht, fun heq => ?_, rfl, ?_⟩
  · have hleft := hlist.mp heq _ (List.mem_singleton_self _) rfl
    cases hleft
  · exact hothers.fields "url_enabled" fun hmentions => nomatch hmentions.2 rfl

end CampusAuth.Web
