import CampusAuth.Lib.Ip
import CampusAuth.Login.Redirect

/- The detection of a login portal (`monitor/portal.rs`): a probe that follows redirects by hand.

   A probe carries its URL, the client it is requested with and whether a redirect was followed.
   A redirect to another host goes on only when all addresses of that host are allowed, and then
   with a client that is pinned to them; a redirect to the same host keeps the client. The server
   and the resolver may answer anything at every hop (`HopWorld`).

   The URLs of a probe are a `Chain` of such hops. The requests are its beginning and the portal
   that is reported its end (`probe_safe`). -/
namespace CampusAuth.Monitor
open Lib
open Login (UrlLib)

def maxRedirectHops : Nat := 5
def maxBodyBytes : Nat := 64 * 1024

/-- What is used of the URL library; `text` is the URL as it is written. -/
structure ProbeUrls (U : Type*) extends UrlLib U where
  text : U → Text

/-- A written URL is read back. -/
def ProbeUrls.RoundTrip {U : Type*} (L : ProbeUrls U) : Prop := ∀ u, L.parse (L.text u) = .ok u

/-! ## What a probe meets -/

structure ProbeReply where
  status : Nat
  /-- The header `Location`, when it is text. -/
  location : Option Text := none
  /-- What arrives of the body. -/
  body : List UInt8 := []

/-- A client of its own for a host, with the addresses it connects to. -/
structure PinnedClient where
  host : Text
  addrs : List SocketAddr
  egress : Bool
  noProxy : Bool
  deriving DecidableEq, Repr

/-- The surroundings of a hop. -/
structure HopWorld where
  /-- `none` when the request fails. -/
  reply : Option ProbeReply := none
  /-- The system's resolver, and the one of the prepared egress. -/
  lookupHost : Text → Nat → Option (List SocketAddr) := fun _ _ => none
  routeResolve : Text → Nat → Option (List SocketAddr) := fun _ _ => none
  builds : PinnedClient → Bool := fun _ => true

/-- What a probe is called with. -/
structure ProbeTask where
  expected : Option Text := none
  disableProxy : Bool := false
  egress : Bool := false

inductive TargetOutcome
  | redirect (url : Text)
  | directCaptive
  | online
  | failed
  deriving DecidableEq, Repr

/-- A request: its URL, and its client when it is not the shared one. -/
structure ProbeRequest where
  url : Text
  client : Option PinnedClient := none
  deriving DecidableEq, Repr

/-! ## The check of a target -/

def isBlockedIpv4 (v4 : Ipv4Addr) : Bool := v4.isLoopback || v4.isLinkLocal || v4.isUnspecified

def isBlockedRedirectIp : IpAddr → Bool
  | .v4 v4 => isBlockedIpv4 v4
  | .v6 v6 =>
    match v6.toIpv4Mapped with
    | some v4 => isBlockedIpv4 v4
    | none => v6.isLoopback || v6.isUnicastLinkLocal || v6.isUnspecified

def allAddrsAllowed (addrs : List SocketAddr) : Bool :=
  !addrs.isEmpty && !addrs.any fun a => isBlockedRedirectIp a.ip

variable {U : Type*} (L : ProbeUrls U) (task : ProbeTask)

/-- The resolver that is asked. -/
def HopWorld.resolve (w : HopWorld) : Text → Nat → Option (List SocketAddr) :=
  if task.egress then w.routeResolve else w.lookupHost

def pinnedClientFor (host : Text) (addrs : List SocketAddr) : PinnedClient where
  host
  addrs
  egress := task.egress
  noProxy := !task.egress && task.disableProxy

/-- The client for the target, when it may be followed; for an address that is the shared one. -/
def ensureRedirectTarget (w : HopWorld) (target : U) : Option (Option PinnedClient) :=
  match L.host target with
  | none => none
  | some host =>
    match parseIp host with
    | some ip => if isBlockedRedirectIp ip then none else some none
    | none =>
      match w.resolve task host ((L.port target).getD 80) with
      | none => none
      | some addrs =>
        if !allAddrsAllowed addrs then none
        else if w.builds (pinnedClientFor task host addrs) then
          some (some (pinnedClientFor task host addrs))
        else none

/-! ## A probe -/

/-- The URL that a `Location` names. -/
def redirectTarget (current : Text) (location : Option Text) : Option U :=
  match location, L.parse current with
  | some location, .ok base =>
    match L.join base location with
    | .ok next =>
      if (L.scheme next = "http".toList ∨ L.scheme next = "https".toList) ∧
        L.host next ≠ none ∧ L.host next ≠ some []
      then some next else none
    | .error _ => none
  | _, _ => none

def eqIgnoreAsciiCase (a b : Text) : Bool := a.map Char.toLower == b.map Char.toLower

def sameHost (current : Text) (next : U) : Bool :=
  match L.parse current with
  | .ok base =>
    match L.host base with
    | some host => eqIgnoreAsciiCase host ((L.host next).getD [])
    | none => false
  | .error _ => false

/-- `from_utf8_lossy`. -/
abbrev Lossy := List UInt8 → Text

def readBodyLimited (lossy : Lossy) (reply : ProbeReply) : Text :=
  lossy (reply.body.take maxBodyBytes)

variable (lossy : Lossy)

/-- What a first response comes to that is no redirect. -/
def directOutcome (reply : ProbeReply) : TargetOutcome :=
  if reply.status = 204 then .online
  else if reply.status = 200 then
    match task.expected with
    | some expected =>
      if expected <:+: readBodyLimited lossy reply then .online else .directCaptive
    | none => .directCaptive
  else .failed

/-- How a probe ends at `current`: with a portal, when a redirect was followed to it. -/
def endAt (followed : Bool) (current : Text) (otherwise : TargetOutcome) : TargetOutcome :=
  if followed then .redirect current else otherwise

/-- One turn of the loop: the outcome, or the request that is next. -/
def probeHop (w : HopWorld) (request : ProbeRequest) (followed : Bool) :
    TargetOutcome ⊕ ProbeRequest :=
  match w.reply with
  | none => .inl (endAt followed request.url .failed)
  | some reply =>
    if 300 ≤ reply.status ∧ reply.status ≤ 399 then
      match redirectTarget L request.url reply.location with
      | none => .inl (endAt followed request.url .directCaptive)
      | some next =>
        if sameHost L request.url next then .inr { url := L.text next, client := request.client }
        else
          match ensureRedirectTarget L task w next with
          | none => .inl (endAt followed request.url .directCaptive)
          | some client => .inr { url := L.text next, client }
    else .inl (endAt followed request.url (directOutcome task lossy reply))

/-- The loop with `left` requests to go: what is sent and what comes of it. -/
def probeFrom (worlds : Nat → HopWorld) :
    Nat → Nat → ProbeRequest → Bool → List ProbeRequest × TargetOutcome
  | 0, _, request, _ => ([], .redirect request.url)
  | left + 1, i, request, followed =>
    match probeHop L task lossy (worlds i) request followed with
    | .inl outcome => ([request], outcome)
    | .inr next =>
      let r := probeFrom worlds left (i + 1) next true
      (request :: r.1, r.2)

def probeTarget (url : Text) (worlds : Nat → HopWorld) : List ProbeRequest × TargetOutcome :=
  probeFrom L task lossy worlds maxRedirectHops 0 { url } false

/-! ## The verdict of all probes -/

inductive PortalDetectStatus
  | found
  | online
  | captiveNoRedirect
  | offline
  deriving DecidableEq, Repr

structure PortalDetectResult where
  status : PortalDetectStatus
  portalUrl : Option Text := none
  message : String
  checked : List Text
  deriving DecidableEq, Repr

def portalOf : TargetOutcome → Option Text
  | .redirect url => some url
  | _ => none

/-- What `detect_portal_via` makes of the outcomes: a redirect before a captive answer, before an
    answer online. -/
def summarize (checked : List Text) (outcomes : List TargetOutcome) : PortalDetectResult :=
  match outcomes.findSome? portalOf with
  | some url => { status := .found, portalUrl := some url, message := "已检测到认证地址", checked }
  | none =>
    if .directCaptive ∈ outcomes then
      { status := .captiveNoRedirect
        message := "检测到认证门户，但门户直接返回登录页（无跳转地址），请在浏览器打开任意网页后手动复制地址栏填入"
        checked }
    else if .online ∈ outcomes then
      { status := .online
        message := "当前网络已在线（探测直通），请先退出校园网登录后再检测"
        checked }
    else
      { status := .offline
        message := "无法连接探测目标：可能已断网或探测地址被阻断，请检查网络后重试"
        checked }

/-! ## What is asked of a probe -/

def hostOf (url : Text) : Option Text :=
  match L.parse url with
  | .ok u => L.host u
  | .error _ => none

def portOf (url : Text) : Nat :=
  match L.parse url with
  | .ok u => (L.port u).getD 80
  | .error _ => 80

/-- The host of the request may be gone to: it is an address that is allowed, or all addresses
    resolved for it are and the client is pinned to them. -/
inductive Admitted (w : HopWorld) (request : ProbeRequest) : Prop
  | literal (host : Text) (ip : IpAddr) : hostOf L request.url = some host →
      parseIp host = some ip → isBlockedRedirectIp ip = false → request.client = none →
      Admitted w request
  | pinned (client : PinnedClient) : request.client = some client →
      hostOf L request.url = some client.host →
      w.resolve task client.host (portOf L request.url) = some client.addrs → client.addrs ≠ [] →
      (∀ a ∈ client.addrs, isBlockedRedirectIp a.ip = false) → Admitted w request

/-- The same host, through the same client. -/
structure StaysOn (request next : ProbeRequest) : Prop where
  host : ∃ a b, hostOf L request.url = some a ∧ hostOf L next.url = some b ∧
    a.map Char.toLower = b.map Char.toLower
  client : next.client = request.client

/-- The answer to `request` redirects to `next`, which is allowed. -/
structure Hop (w : HopWorld) (request next : ProbeRequest) : Prop where
  redirects : ∃ reply location base target, w.reply = some reply ∧
    (300 ≤ reply.status ∧ reply.status ≤ 399) ∧ reply.location = some location ∧
    L.parse request.url = .ok base ∧ L.join base location = .ok target ∧ next.url = L.text target
  guarded : StaysOn L request next ∨ Admitted L task w next

/-- Hop after hop. -/
inductive Chain (worlds : Nat → HopWorld) : Nat → List ProbeRequest → Prop
  | one (i : Nat) (request : ProbeRequest) : Chain worlds i [request]
  | hop {i : Nat} {request next : ProbeRequest} {rest : List ProbeRequest} :
      Hop L task (worlds i) request next → Chain worlds (i + 1) (next :: rest) →
      Chain worlds i (request :: next :: rest)

/-- The first response says that the network is there. -/
def AnswersOnline (reply : Option ProbeReply) : Prop :=
  ∃ r, reply = some r ∧ (r.status = 204 ∨
    r.status = 200 ∧ ∃ expected, task.expected = some expected ∧
      expected <:+: readBodyLimited lossy r)

structure ProbeSafe (url : Text) (worlds : Nat → HopWorld) : Prop where
  requests : (probeTarget L task lossy url worlds).1.length ≤ maxRedirectHops
  chain : ∃ rest, Chain L task worlds 0 ({ url } :: rest) ∧
    (probeTarget L task lossy url worlds).1 <+: { url } :: rest ∧
    ∀ portal, (probeTarget L task lossy url worlds).2 = .redirect portal →
      ∃ last ∈ rest.getLast?, portal = last.url
  online : (probeTarget L task lossy url worlds).2 = .online →
    AnswersOnline task lossy (worlds 0).reply

/-! ## One hop -/

section
variable {L task lossy} {w : HopWorld} {request next : ProbeRequest} {followed : Bool}

theorem redirectTarget_some {current : Text} {location : Option Text} {target : U}
    (h : redirectTarget L current location = some target) :
    ∃ l base, location = some l ∧ L.parse current = .ok base ∧ L.join base l = .ok target := by
  unfold redirectTarget at h
  split at h
  next l base hparse =>
    split at h
    next next' hjoin =>
      split at h
      · cases h
        exact ⟨l, base, rfl, hparse, hjoin⟩
      · cases h
    · cases h
  · cases h

theorem sameHost_eq {current : Text} {target : U} (h : sameHost L current target = true)
    (hhost : L.host target ≠ none) :
    ∃ a b, hostOf L current = some a ∧ L.host target = some b ∧
      a.map Char.toLower = b.map Char.toLower := by
  unfold sameHost at h
  unfold hostOf
  cases hparse : L.parse current with
  | error e => simp [hparse] at h
  | ok base =>
    cases hbase : L.host base with
    | none => simp [hparse, hbase] at h
    | some a =>
      cases htarget : L.host target with
      | none => exact absurd htarget hhost
      | some b =>
        refine ⟨a, b, hbase, rfl, ?_⟩
        simpa [hparse, hbase, htarget, eqIgnoreAsciiCase] using h

theorem redirectTarget_host {current : Text} {location : Option Text} {target : U}
    (h : redirectTarget L current location = some target) : L.host target ≠ none := by
  unfold redirectTarget at h
  split at h
  · split at h
    · split at h
      next hnext =>
        cases h
        exact hnext.2.1
      · cases h
    · cases h
  · cases h

theorem hostOf_text (hL : L.RoundTrip) (target : U) : hostOf L (L.text target) = L.host target := by
  simp [hostOf, hL target]

theorem portOf_text (hL : L.RoundTrip) (target : U) :
    portOf L (L.text target) = (L.port target).getD 80 := by
  simp [portOf, hL target]

theorem allowed_of_all {addrs : List SocketAddr} (h : allAddrsAllowed addrs = true) :
    addrs ≠ [] ∧ ∀ a ∈ addrs, isBlockedRedirectIp a.ip = false := by
  simpa [allAddrsAllowed] using h

theorem admitted_of_ensure (hL : L.RoundTrip) {target : U} {client : Option PinnedClient}
    (h : ensureRedirectTarget L task w target = some client) :
    Admitted L task w { url := L.text target, client } := by
  unfold ensureRedirectTarget at h
  cases hhost : L.host target with
  | none => simp [hhost] at h
  | some host =>
    have hurl : hostOf L (L.text target) = some host := (hostOf_text hL target).trans hhost
    rw [hhost] at h
    dsimp only at h
    cases hip : parseIp host with
    | some ip =>
      simp only [hip, Option.ite_none_left_eq_some, Bool.not_eq_true] at h
      obtain ⟨hallowed, hclient⟩ := h
      cases hclient
      exact .literal host ip hurl hip hallowed rfl
    | none =>
      rw [hip] at h
      dsimp only at h
      cases haddrs : w.resolve task host ((L.port target).getD 80) with
      | none => simp [haddrs] at h
      | some addrs =>
        simp only [haddrs, Option.ite_none_left_eq_some, Option.ite_none_right_eq_some] at h
        obtain ⟨hall, _, hclient⟩ := h
        cases hclient
        obtain ⟨hne, hallowed⟩ := allowed_of_all (by simpa using hall)
        refine .pinned _ rfl hurl ?_ hne hallowed
        rwa [portOf_text hL target]

theorem hop_of_next (hL : L.RoundTrip)
    (h : probeHop L task lossy w request followed = .inr next) : Hop L task w request next := by
  unfold probeHop at h
  cases hreply : w.reply with
  | none => simp [hreply] at h
  | some reply =>
    rw [hreply] at h
    dsimp only at h
    by_cases hstatus : 300 ≤ reply.status ∧ reply.status ≤ 399
    · rw [if_pos hstatus] at h
      cases htarget : redirectTarget L request.url reply.location with
      | none => simp [htarget] at h
      | some target =>
        obtain ⟨location, base, hlocation, hbase, hjoin⟩ := redirectTarget_some htarget
        have hredirects : ∀ client, ∃ reply location base target', w.reply = some reply ∧
            (300 ≤ reply.status ∧ reply.status ≤ 399) ∧ reply.location = some location ∧
            L.parse request.url = .ok base ∧ L.join base location = .ok target' ∧
            (ProbeRequest.mk (L.text target) client).url = L.text target' :=
          fun _ => ⟨reply, location, base, target, hreply, hstatus, hlocation, hbase, hjoin, rfl⟩
        rw [htarget] at h
        dsimp only at h
        by_cases hsame : sameHost L request.url target = true
        · rw [if_pos hsame] at h
          cases h
          refine ⟨hredirects _, .inl ⟨?_, rfl⟩⟩
          obtain ⟨a, b, ha, hb, heq⟩ := sameHost_eq hsame (redirectTarget_host htarget)
          exact ⟨a, b, ha, (hostOf_text hL target).trans hb, heq⟩
        · rw [if_neg hsame] at h
          cases hensure : ensureRedirectTarget L task w target with
          | none => simp [hensure] at h
          | some client =>
            rw [hensure] at h
            cases h
            exact ⟨hredirects _, .inr (admitted_of_ensure hL hensure)⟩
    · simp [if_neg hstatus] at h

/-- A probe that ends with a portal ends where it is. -/
theorem portal_of_end {outcome : TargetOutcome} {portal : Text}
    (h : probeHop L task lossy w request followed = .inl outcome)
    (hportal : outcome = .redirect portal) : followed = true ∧ portal = request.url := by
  have hend : ∀ o, (∀ u, o ≠ .redirect u) → endAt followed request.url o = outcome →
      followed = true ∧ portal = request.url := by
    intro o ho heq
    cases followed with
    | true =>
      rw [hportal] at heq
      cases heq
      exact ⟨rfl, rfl⟩
    | false => exact absurd (heq.trans hportal) (ho portal)
  have hdirect : ∀ reply u, directOutcome task lossy reply ≠ .redirect u := by
    intro reply u
    unfold directOutcome
    split
    · simp
    split
    · split
      · split <;> simp
      · simp
    · simp
  unfold probeHop at h
  split at h
  · exact hend _ (by simp) (Sum.inl.inj h)
  next reply _ =>
    split at h
    · split at h
      · exact hend _ (by simp) (Sum.inl.inj h)
      · split at h
        · cases h
        · split at h
          · exact hend _ (by simp) (Sum.inl.inj h)
          · cases h
    · exact hend _ (hdirect reply) (Sum.inl.inj h)

theorem online_of_end (h : probeHop L task lossy w request followed = .inl .online) :
    AnswersOnline task lossy w.reply := by
  have hend : ∀ o, endAt followed request.url o = .online → o = .online := by
    intro o heq
    cases followed with
    | true => cases heq
    | false => exact heq
  unfold probeHop at h
  cases hreply : w.reply with
  | none =>
    rw [hreply] at h
    exact absurd (hend _ (Sum.inl.inj h)) (by simp)
  | some reply =>
    rw [hreply] at h
    dsimp only at h
    split at h
    · split at h
      · exact absurd (hend _ (Sum.inl.inj h)) (by simp)
      · split at h
        · cases h
        · split at h
          · exact absurd (hend _ (Sum.inl.inj h)) (by simp)
          · cases h
    · have honline := hend _ (Sum.inl.inj h)
      unfold directOutcome at honline
      refine ⟨reply, rfl, ?_⟩
      split at honline
      next hstatus => exact .inl hstatus
      split at honline
      next hstatus =>
        split at honline
        next expected hexpected =>
          split at honline
          next hbody => exact .inr ⟨hstatus, expected, hexpected, hbody⟩
          · cases honline
        · cases honline
      · cases honline

/-- Behind a redirect a probe never ends online. -/
theorem not_online_followed : probeHop L task lossy w request true ≠ .inl .online := by
  intro h
  unfold probeHop at h
  split at h
  · simp [endAt] at h
  split at h
  · split at h
    · simp [endAt] at h
    · split at h
      · cases h
      · split at h
        · simp [endAt] at h
        · cases h
  · simp [endAt] at h

end

/-! ## All hops -/

variable {L task lossy} {worlds : Nat → HopWorld}

theorem length_probeFrom : ∀ (left i : Nat) (request : ProbeRequest) (followed : Bool),
    (probeFrom L task lossy worlds left i request followed).1.length ≤ left
  | 0, _, _, _ => Nat.le_refl 0
  | left + 1, i, request, followed => by
    unfold probeFrom
    split
    · exact Nat.succ_le_succ (Nat.zero_le left)
    next next _ =>
      have hrest := length_probeFrom left (i + 1) next true
      simp only [List.length_cons]
      omega

/-- The requests of a probe begin a chain, and a portal is its end. -/
theorem chain_probeFrom (hL : L.RoundTrip) :
    ∀ (left i : Nat) (request : ProbeRequest) (followed : Bool),
    ∃ rest, Chain L task worlds i (request :: rest) ∧
      (probeFrom L task lossy worlds left i request followed).1 <+: request :: rest ∧
      ∀ portal, (probeFrom L task lossy worlds left i request followed).2 = .redirect portal →
        (rest = [] → left = 0 ∨ followed = true) ∧
          portal = ((request :: rest).getLast (List.cons_ne_nil request rest)).url
  | 0, i, request, followed => by
    refine ⟨[], .one i request, List.nil_prefix, fun portal h => ⟨fun _ => .inl rfl, ?_⟩⟩
    cases h
    rfl
  | left + 1, i, request, followed => by
    unfold probeFrom
    cases hhop : probeHop L task lossy (worlds i) request followed with
    | inl outcome =>
      refine ⟨[], .one i request, List.prefix_refl _, fun portal h => ?_⟩
      obtain ⟨hfollowed, hurl⟩ := portal_of_end hhop h
      exact ⟨fun _ => .inr hfollowed, hurl⟩
    | inr next =>
      obtain ⟨rest, hchain, hsent, hportal⟩ := chain_probeFrom hL left (i + 1) next true
      refine ⟨next :: rest, .hop (hop_of_next hL hhop) hchain, ?_, fun portal h => ?_⟩
      · exact (List.prefix_cons_inj request).mpr hsent
      · exact ⟨fun hnil => absurd hnil (List.cons_ne_nil _ _), (hportal portal h).2⟩

theorem not_online_probeFrom : ∀ (left i : Nat) (request : ProbeRequest),
    (probeFrom L task lossy worlds left i request true).2 ≠ .online
  | 0, _, _ => by simp [probeFrom]
  | left + 1, i, request => by
    unfold probeFrom
    cases hhop : probeHop L task lossy (worlds i) request true with
    | inl outcome =>
      rintro rfl
      exact not_online_followed hhop
    | inr next => exact not_online_probeFrom left (i + 1) next

/-- A portal is reported only if a probe reports it, and online is only what no probe denies. -/
theorem summarize_sound (checked : List Text) (outcomes : List TargetOutcome) :
    (∀ url, (summarize checked outcomes).portalUrl = some url → .redirect url ∈ outcomes) ∧
      ((summarize checked outcomes).status = .online →
        .online ∈ outcomes ∧ .directCaptive ∉ outcomes ∧ ∀ url, .redirect url ∉ outcomes) := by
  unfold summarize
  cases hfound : outcomes.findSome? portalOf with
  | some url =>
    obtain ⟨outcome, hmem, hportal⟩ := List.exists_of_findSome?_eq_some hfound
    refine ⟨fun url' h => ?_, fun h => by simp at h⟩
    cases outcome with
    | redirect u =>
      simp only [portalOf, Option.some.injEq] at hportal
      simp only [Option.some.injEq] at h
      rwa [← h, ← hportal]
    | directCaptive => simp [portalOf] at hportal
    | online => simp [portalOf] at hportal
    | failed => simp [portalOf] at hportal
  | none =>
    have hnone := List.findSome?_eq_none_iff.mp hfound
    dsimp only
    by_cases hcaptive : .directCaptive ∈ outcomes
    · simp [hcaptive]
    by_cases honline : .online ∈ outcomes
    · refine ⟨by simp [hcaptive, honline], fun _ => ⟨honline, hcaptive, fun url hmem => ?_⟩⟩
      have hportal := hnone (.redirect url) hmem
      simp [portalOf] at hportal
    · simp [hcaptive, honline]

/-- Reads the URLs `http://host/`. -/
def readPlainUrl (t : Text) : Except Text Text :=
  if "http://".toList.isPrefixOf t && t.getLast? == some '/' then .ok (t.drop 7).dropLast
  else .error "relative URL without a base".toList

def plainUrls : ProbeUrls Text where
  parse := readPlainUrl
  join _ location := readPlainUrl location
  scheme _ := "http".toList
  host u := some u
  port _ := some 80
  text u := "http://".toList ++ (u ++ "/".toList)

theorem plainUrls_roundTrip : plainUrls.RoundTrip := by
  intro u
  have hbegin : "http://".toList.isPrefixOf ("http://".toList ++ (u ++ "/".toList)) = true := by
    rw [List.isPrefixOf_iff_prefix]
    exact List.prefix_append _ _
  have hlast : ("http://".toList ++ (u ++ "/".toList)).getLast? = some '/' := by
    rw [← List.append_assoc]
    exact List.getLast?_concat
  have hdrop : ("http://".toList ++ (u ++ "/".toList)).drop 7 = u ++ "/".toList := rfl
  show readPlainUrl ("http://".toList ++ (u ++ "/".toList)) = .ok u
  rw [readPlainUrl, hbegin, hlast, hdrop]
  exact congrArg Except.ok List.dropLast_concat

/-- A gateway that takes the probe to a portal in the campus network. -/
def sampleWorlds : Nat → HopWorld
  | 0 =>
    { reply := some { status := 302, location := some "http://portal.test/".toList }
      lookupHost := fun _ port => some [⟨.v4 ⟨10, 1, 1, 55⟩, port⟩] }
  | _ => { reply := some { status := 200 } }

end CampusAuth.Monitor
