import CampusAuth.Lib.Ip
import CampusAuth.Login.Redirect
import Mathlib.Data.List.TakeWhile

/- Guarded downloads (`web/ssrf.rs`): every hop resolves its host, checks all addresses of the
   answer, pins the host to one of them and sends.

   The resolver, the servers and the system's proxy settings may answer anew at every hop
   (`Surroundings`). Where a request connects to is the client library's affair (`Reqwest`): a
   pin replaces its own query of the resolver, and nothing else. So a request through a system
   proxy goes to the proxy, and one for a host that is an address in brackets, which
   `resolve_public` takes for a name, goes to that address.

   `ssrf_safe_iff` says when all connections go to checked addresses. -/
namespace CampusAuth.Web
open Lib
open Login (UrlLib)

def maxRedirects : Nat := 5

/-! ## Restricted addresses -/

def isRestrictedIpv4 (v4 : Ipv4Addr) : Bool :=
  v4.isPrivate
    || v4.isLoopback
    || v4.isUnspecified
    || v4.isMulticast
    || v4.isLinkLocal
    || v4.isBroadcast
    || v4.within ⟨0, 0, 0, 0⟩ ⟨0, 255, 255, 255⟩
    || v4.within ⟨100, 64, 0, 0⟩ ⟨100, 127, 255, 255⟩
    || v4.within ⟨192, 0, 2, 0⟩ ⟨192, 0, 2, 255⟩
    || v4.within ⟨198, 51, 100, 0⟩ ⟨198, 51, 100, 255⟩
    || v4.within ⟨203, 0, 113, 0⟩ ⟨203, 0, 113, 255⟩
    || v4.within ⟨198, 18, 0, 0⟩ ⟨198, 19, 255, 255⟩
    || v4.within ⟨240, 0, 0, 0⟩ ⟨255, 255, 255, 255⟩

def isRestrictedIp : IpAddr → Bool
  | .v4 v4 => isRestrictedIpv4 v4
  | .v6 v6 =>
    match v6.toIpv4Mapped with
    | some v4 => isRestrictedIpv4 v4
    | none =>
      -- NAT64 and 6to4 carry an IPv4 address
      if v6.s0 = 0x0064 ∧ v6.s1 = 0xff9b ∧ v6.s2 = 0 ∧ v6.s3 = 0 ∧ v6.s4 = 0 ∧ v6.s5 = 0 then
        isRestrictedIpv4 (Ipv6Addr.embedded v6.s6 v6.s7)
      else if v6.s0 = 0x2002 then isRestrictedIpv4 (Ipv6Addr.embedded v6.s1 v6.s2)
      else
        v6.isLoopback
          || v6.isUnspecified
          || v6.isMulticast
          || v6.isUniqueLocal
          || v6.isUnicastLinkLocal
          || v6 == ⟨0x0100, 0, 0, 0, 0, 0, 0, 0⟩
          || (v6.s0 == 0x2001 && v6.s1 == 0x0002 && v6.s2 == 0)
          || (v6.s0 == 0x2001 && v6.s1 == 0x0db8)

/-! ## The client library -/

/-- A client as it is built: pinned, without redirects. -/
structure Client where
  host : Text
  addr : SocketAddr
  proxy : Option Text

/-- A host without the brackets around it. -/
def bare (host : Text) : Text :=
  ((host.dropWhile (· == '[')).reverse.dropWhile (· == ']')).reverse

/-- What is used of the client library, the URL library among it. -/
structure Reqwest (U : Type*) extends UrlLib U where
  text : U → Text
  /-- Whether a proxy can be set to this text. -/
  takesProxy : Text → Except Text Unit
  build : Client → Except Text Unit
  /-- Where a request connects to, given the proxy that the system has for its URL. -/
  connect : Client → Option SocketAddr → U → SocketAddr

/-- Where a client without a proxy of its own connects to. -/
structure Reqwest.Lawful {U : Type*} (R : Reqwest U) : Prop where
  /-- The system's proxy is used, unless that is turned off. -/
  system : ∀ (c : Client) (p : SocketAddr) (u : U), c.proxy = none → R.connect c (some p) u = p
  /-- An address is not resolved. -/
  literal : ∀ (c : Client) (u : U) (ip : IpAddr) (port : Nat), c.proxy = none →
    R.host u = some c.host → R.port u = some port → parseIp (bare c.host) = some ip →
    R.connect c none u = ⟨ip, port⟩
  /-- A pinned name is not resolved either. -/
  pinned : ∀ (c : Client) (u : U) (port : Nat), c.proxy = none → R.host u = some c.host →
    R.port u = some port → parseIp (bare c.host) = none → R.connect c none u = ⟨c.addr.ip, port⟩

structure Response where
  status : Nat
  /-- The header `Location`, when it is text. -/
  location : Option Text := none

/-- What a hop meets. -/
structure Surroundings (U : Type*) where
  /-- `none` when the resolution fails. -/
  lookupHost : Text → Option (List IpAddr) := fun _ => none
  systemProxy : U → Option SocketAddr := fun _ => none
  /-- What comes of the request behind which so many addresses are left to try. -/
  send : Nat → Except Text Response := fun _ => .error []

/-! ## The source -/

variable {U : Type*} (R : Reqwest U)

/-- A request as it goes out. -/
structure Sent (U : Type*) where
  url : U
  /-- The addresses resolved for it. -/
  answer : List SocketAddr
  system : Option SocketAddr
  client : Client
  connection : SocketAddr

def resolvePublic (env : Surroundings U) (host : Text) (port : Nat) :
    Except Text (List SocketAddr) :=
  match parseIp host with
  | some ip =>
    if isRestrictedIp ip then .error ("禁止访问内网/保留地址: ".toList ++ host)
    else .ok [⟨ip, port⟩]
  | none =>
    match env.lookupHost host with
    | none => .error ("DNS 解析失败，拒绝访问: ".toList ++ host)
    | some ips =>
      if ips = [] then .error ("DNS 解析无结果: ".toList ++ host)
      else if ips.any isRestrictedIp then .error ("禁止访问内网/保留地址: ".toList ++ host)
      else .ok (ips.map fun ip => ⟨ip, port⟩)

def setProxy (proxy : Option Text) : Except Text Unit :=
  match proxy with
  | none => .ok ()
  | some p => (R.takesProxy p).mapError fun e => "代理 URL 非法: ".toList ++ e

def pinnedClient (host : Text) (addr : SocketAddr) (proxy : Option Text) : Except Text Client :=
  match setProxy R proxy, R.build { host, addr, proxy } with
  | .error e, _ => .error e
  | .ok (), .error e => .error ("构建 HTTP 客户端失败: ".toList ++ e)
  | .ok (), .ok () => .ok { host, addr, proxy }

/-- One address after the other, until one answers: the requests and what came of them. -/
def tryEach (proxy : Option Text) (env : Surroundings U) (url : U) (host : Text)
    (addrs : List SocketAddr) : List SocketAddr → Text → List (Sent U) × Except Text Response
  | [], lastErr => ([], .error ("请求失败: ".toList ++ lastErr))
  | addr :: rest, _ =>
    match pinnedClient R host addr proxy with
    | .error e => ([], .error e)
    | .ok client =>
      let system := env.systemProxy url
      let sent : Sent U :=
        { url, answer := addrs, system, client, connection := R.connect client system url }
      match env.send rest.length with
      | .ok resp => ([sent], .ok resp)
      | .error e =>
        let r := tryEach proxy env url host addrs rest e
        (sent :: r.1, r.2)

def isRedirection (status : Nat) : Bool := 300 ≤ status && status < 400

/-- Parses, resolves and sends: the URL and the requests, and their response. -/
def fetch (proxy : Option Text) (env : Surroundings U) (current : Text) :
    List (Sent U) × Except Text (U × Response) :=
  match R.parse current with
  | .error e => ([], .error ("无效的 URL: ".toList ++ e))
  | .ok parsed =>
    let scheme := R.scheme parsed
    if scheme ≠ "http".toList ∧ scheme ≠ "https".toList then
      ([], .error ("不支持的 URL 协议: ".toList ++ scheme ++ "，仅支持 http/https".toList))
    else
      match R.host parsed, R.port parsed with
      | none, _ => ([], .error "URL 缺少主机名".toList)
      | some _, none => ([], .error "URL 缺少端口".toList)
      | some host, some port =>
        match resolvePublic env host port with
        | .error e => ([], .error e)
        | .ok addrs =>
          let r := tryEach R proxy env parsed host addrs addrs "无可用地址".toList
          (r.1, r.2.map (parsed, ·))

/-- What the loop makes of a response: it returns, or goes on at another URL. -/
def answered (proxy : Option Text) (current : Text) (parsed : U) (resp : Response) :
    Except Text (Response × Text) ⊕ Text :=
  if !isRedirection resp.status then .inl (.ok (resp, current))
  else if proxy.isSome then .inl (.ok (resp, current))
  else
    match resp.location with
    | none => .inl (.error "重定向缺少 Location".toList)
    | some loc =>
      match R.join parsed loc with
      | .error e => .inl (.error ("重定向地址无效: ".toList ++ e))
      | .ok next => .inr (R.text next)

/-- The loop with `left` hops to go: the requests of each hop and what it returns. -/
def getFrom (proxy : Option Text) (envs : Nat → Surroundings U) :
    Nat → Nat → Text → List (List (Sent U)) × Except Text (Response × Text)
  | 0, _, _ => ([], .error "重定向超过 5 跳，放弃请求".toList)
  | left + 1, i, current =>
    match fetch R proxy (envs i) current with
    | (sent, .error e) => ([sent], .error e)
    | (sent, .ok (parsed, resp)) =>
      match answered R proxy current parsed resp with
      | .inl result => ([sent], result)
      | .inr next =>
        let r := getFrom proxy envs left (i + 1) next
        (sent :: r.1, r.2)

def secureGetProxied (url : Text) (proxy : Option Text) (envs : Nat → Surroundings U) :
    List (List (Sent U)) × Except Text (Response × Text) :=
  getFrom R proxy envs maxRedirects 0 url

def secureGet (url : Text) (envs : Nat → Surroundings U) :
    List (List (Sent U)) × Except Text (Response × Text) :=
  secureGetProxied R url none envs

/-! ## What is asked of the requests -/

/-- The request goes to an address that was resolved for it, and none of these is restricted. -/
def Sent.Pinned (s : Sent U) : Prop :=
  s.connection ∈ s.answer ∧ ∀ a ∈ s.answer, isRestrictedIp a.ip = false

/-- No requests but guarded ones: without a proxy all connections are pinned, and with one no
    redirect is followed. -/
structure SsrfSafe (url : Text) (envs : Nat → Surroundings U) : Prop where
  pinned : ∀ hop ∈ (secureGet R url envs).1, ∀ s ∈ hop, s.Pinned
  scheme : ∀ proxy, ∀ hop ∈ (secureGetProxied R url proxy envs).1, ∀ s ∈ hop,
    R.scheme s.url = "http".toList ∨ R.scheme s.url = "https".toList
  hops : ∀ proxy, (secureGetProxied R url proxy envs).1.length ≤ maxRedirects
  proxied : ∀ p, (secureGetProxied R url (some p) envs).1.length ≤ 1

/-- Nothing comes between the pin and the connection: the system has no proxy for the URL, and a
    host in brackets is resolved to the address in them. A proxy among the resolved addresses
    does no harm either. -/
def Sent.Direct (s : Sent U) : Prop :=
  match s.system with
  | some p => p ∈ s.answer
  | none => parseIp s.client.host = none → ∀ ip ∈ parseIp (bare s.client.host),
      ∀ port ∈ R.port s.url, ⟨ip, port⟩ ∈ s.answer

instance (s : Sent U) : Decidable (s.Direct R) := by
  unfold Sent.Direct
  cases s.system <;> infer_instance

/-! ## One hop -/

variable {R} {proxy : Option Text} {env : Surroundings U}

theorem dropWhile_of_not_mem {c : Char} {text : Text} (h : c ∉ text) :
    text.dropWhile (· == c) = text :=
  List.dropWhile_eq_self_iff.mpr fun hlen heq => h (eq_of_beq heq ▸ List.getElem_mem hlen)

theorem bare_of_plain {host : Text} (h : ∀ c ∈ host, IpChar c) : bare host = host := by
  have hopen : host.dropWhile (· == '[') = host :=
    dropWhile_of_not_mem fun hmem => absurd (h '[' hmem) (by decide)
  have hclose : host.reverse.dropWhile (· == ']') = host.reverse :=
    dropWhile_of_not_mem fun hmem => absurd (h ']' (List.mem_reverse.mp hmem)) (by decide)
  unfold bare
  rw [hopen, hclose, List.reverse_reverse]

/-- What `resolve_public` lets through. -/
structure Resolved (host : Text) (port : Nat) (addrs : List SocketAddr) : Prop where
  unrestricted : ∀ a ∈ addrs, isRestrictedIp a.ip = false
  samePort : ∀ a ∈ addrs, a.port = port
  literal : ∀ ip, parseIp host = some ip → addrs = [⟨ip, port⟩]

theorem resolved_of_ok {host : Text} {port : Nat} {addrs : List SocketAddr}
    (h : resolvePublic env host port = .ok addrs) : Resolved host port addrs := by
  unfold resolvePublic at h
  split at h
  next ip hip =>
    split at h
    · cases h
    next hfree =>
      cases h
      refine ⟨?_, ?_, ?_⟩
      · simpa using hfree
      · simp
      · intro other hother
        cases hip.symm.trans hother
        rfl
  next hname =>
    split at h
    · cases h
    next ips _ =>
      split at h
      · cases h
      split at h
      · cases h
      next hfree =>
        cases h
        refine ⟨?_, ?_, ?_⟩
        · intro a ha
          obtain ⟨ip, hip, rfl⟩ := List.mem_map.mp ha
          by_contra hrestricted
          exact hfree (List.any_eq_true.mpr ⟨ip, hip, by simpa using hrestricted⟩)
        · simp
        · intro ip hip
          rw [hname] at hip
          cases hip

/-- What all requests have in common. -/
structure Guarded (R : Reqwest U) (proxy : Option Text) (s : Sent U) : Prop where
  scheme : R.scheme s.url = "http".toList ∨ R.scheme s.url = "https".toList
  host : R.host s.url = some s.client.host
  resolved : ∃ port, R.port s.url = some port ∧ Resolved s.client.host port s.answer
  addr : s.client.addr ∈ s.answer
  proxy : s.client.proxy = proxy
  connection : s.connection = R.connect s.client s.system s.url

theorem client_of_ok {host : Text} {addr : SocketAddr} {client : Client}
    (h : pinnedClient R host addr proxy = .ok client) : client = { host, addr, proxy } := by
  unfold pinnedClient at h
  split at h
  · cases h
  · cases h
  · cases h
    rfl

theorem guarded_tryEach {url : U} {host : Text} {port : Nat} {addrs : List SocketAddr}
    (hscheme : R.scheme url = "http".toList ∨ R.scheme url = "https".toList)
    (hhost : R.host url = some host) (hport : R.port url = some port)
    (haddrs : Resolved host port addrs) (tried : List SocketAddr) (htried : ∀ a ∈ tried, a ∈ addrs)
    (lastErr : Text) : ∀ s ∈ (tryEach R proxy env url host addrs tried lastErr).1,
      Guarded R proxy s := by
  induction tried generalizing lastErr with
  | nil => exact nofun
  | cons addr rest ih =>
    unfold tryEach
    split
    · exact nofun
    next client hclient =>
      cases client_of_ok hclient
      have hsent : Guarded R proxy
          { url, answer := addrs, system := env.systemProxy url, client := { host, addr, proxy }
            connection := R.connect { host, addr, proxy } (env.systemProxy url) url } :=
        ⟨hscheme, hhost, ⟨port, hport, haddrs⟩, htried addr List.mem_cons_self, rfl, rfl⟩
      dsimp only
      split
      · intro s hs
        cases List.mem_singleton.mp hs
        exact hsent
      next e _ =>
        intro s hs
        rcases List.mem_cons.mp hs with rfl | hs
        · exact hsent
        · exact ih (fun a ha => htried a (List.mem_cons_of_mem _ ha)) e s hs

theorem guarded_fetch (current : Text) : ∀ s ∈ (fetch R proxy env current).1, Guarded R proxy s := by
  unfold fetch
  split
  · exact nofun
  next parsed _ =>
    dsimp only
    split
    · exact nofun
    next hscheme =>
      split
      · exact nofun
      · exact nofun
      next host port hhost hport =>
        split
        · exact nofun
        next addrs haddrs =>
          have hscheme : R.scheme parsed = "http".toList ∨ R.scheme parsed = "https".toList := by
            by_contra hneither
            exact hscheme (not_or.mp hneither)
          exact guarded_tryEach hscheme hhost hport (resolved_of_ok haddrs) addrs
            (fun _ ha => ha) _

theorem Guarded.pinned_iff {s : Sent U} (hs : Guarded R none s) (hR : R.Lawful) :
    s.Pinned ↔ s.Direct R := by
  obtain ⟨port, hport, hanswer⟩ := hs.resolved
  have hunrestricted : ∀ a ∈ s.answer, isRestrictedIp a.ip = false := hanswer.unrestricted
  have hiff : s.Pinned ↔ s.connection ∈ s.answer := and_iff_left hunrestricted
  rw [hiff, hs.connection]
  unfold Sent.Direct
  cases s.system with
  | some p => rw [hR.system s.client p s.url hs.proxy]
  | none =>
    cases hbare : parseIp (bare s.client.host) with
    | none =>
      rw [hR.pinned s.client s.url port hs.proxy hs.host hport hbare]
      have haddr : (⟨s.client.addr.ip, port⟩ : SocketAddr) = s.client.addr := by
        rw [← hanswer.samePort s.client.addr hs.addr]
      rw [haddr]
      exact iff_of_true hs.addr fun _ => nofun
    | some ip =>
      rw [hR.literal s.client s.url ip port hs.proxy hs.host hport hbare]
      constructor
      · intro hmem _ other hother port' hport'
        cases hother
        cases hport.symm.trans hport'
        exact hmem
      · intro hdirect
        cases hhost : parseIp s.client.host with
        | none => exact hdirect hhost ip rfl port hport
        | some plain =>
          rw [bare_of_plain (parseIp_chars hhost), hhost] at hbare
          cases hbare
          rw [hanswer.literal ip hhost]
          exact List.mem_singleton_self _

/-! ## All hops -/

variable {envs : Nat → Surroundings U}

theorem guarded_getFrom (left i : Nat) (current : Text) :
    ∀ hop ∈ (getFrom R proxy envs left i current).1, ∀ s ∈ hop, Guarded R proxy s := by
  induction left generalizing i current with
  | zero => exact nofun
  | succ left ih =>
    have hfetch := (guarded_fetch current : ∀ s ∈ (fetch R proxy (envs i) current).1, Guarded R proxy s)
    unfold getFrom
    split
    next sent e heq =>
      rw [heq] at hfetch
      simpa using hfetch
    next sent parsed resp heq =>
      rw [heq] at hfetch
      split
      · simpa using hfetch
      next next _ =>
        intro hop hhop
        rcases List.mem_cons.mp hhop with rfl | hhop
        · exact hfetch
        · exact ih (i + 1) next hop hhop

theorem length_getFrom (left i : Nat) (current : Text) :
    (getFrom R proxy envs left i current).1.length ≤ left := by
  induction left generalizing i current with
  | zero => exact Nat.le_refl 0
  | succ left ih =>
    unfold getFrom
    split
    · exact Nat.succ_le_succ (Nat.zero_le left)
    · split
      · exact Nat.succ_le_succ (Nat.zero_le left)
      · exact Nat.succ_le_succ (ih _ _)

theorem length_getFrom_proxied (p : Text) (left i : Nat) (current : Text) :
    (getFrom R (some p) envs left i current).1.length ≤ 1 := by
  cases left with
  | zero => exact Nat.zero_le 1
  | succ left =>
    unfold getFrom
    split
    · exact Nat.le_refl 1
    · split
      · exact Nat.le_refl 1
      next hnext =>
        unfold answered at hnext
        split at hnext <;> cases hnext

/-- The requests are guarded exactly if each is direct. -/
theorem ssrf_safe_iff (R : Reqwest U) (hR : R.Lawful) (url : Text) (envs : Nat → Surroundings U) :
    SsrfSafe R url envs ↔ ∀ hop ∈ (secureGet R url envs).1, ∀ s ∈ hop, s.Direct R := by
  have hguarded : ∀ hop ∈ (secureGet R url envs).1, ∀ s ∈ hop, Guarded R none s :=
    guarded_getFrom maxRedirects 0 url
  constructor
  · intro hsafe hop hhop s hs
    exact ((hguarded hop hhop s hs).pinned_iff hR).mp (hsafe.pinned hop hhop s hs)
  · intro hdirect
    refine ⟨fun hop hhop s hs => ?_, fun proxy hop hhop s hs => ?_, fun proxy => ?_, fun p => ?_⟩
    · exact ((hguarded hop hhop s hs).pinned_iff hR).mpr (hdirect hop hhop s hs)
    · exact (guarded_getFrom maxRedirects 0 url hop hhop s hs).scheme
    · exact length_getFrom maxRedirects 0 url
    · exact length_getFrom_proxied p maxRedirects 0 url

/-! ## Samples -/

/-- The libraries on plain URLs without a port. -/
def sampleReqwest : Reqwest Text where
  parse t :=
    if "http://".toList.isPrefixOf t then .ok ((t.drop 7).takeWhile (· != '/'))
    else .error "relative URL without a base".toList
  join _ _ := .error "relative URL without a base".toList
  scheme _ := "http".toList
  host u := some u
  port _ := some 80
  text u := "http://".toList ++ u ++ "/".toList
  takesProxy _ := .ok ()
  build _ := .ok ()
  connect c system _ := system.getD ⟨(parseIp (bare c.host)).getD c.addr.ip, 80⟩

theorem sampleReqwest_lawful : sampleReqwest.Lawful where
  system _ _ _ _ := rfl
  literal := by
    intro c u ip port _ _ hport hbare
    cases hport
    exact congrArg (fun o => SocketAddr.mk (o.getD c.addr.ip) 80) hbare
  pinned := by
    intro c u port _ _ hport hbare
    cases hport
    exact congrArg (fun o => SocketAddr.mk (o.getD c.addr.ip) 80) hbare

def publicAnswer : Surroundings Text where
  lookupHost _ := some [.v4 ⟨93, 184, 216, 34⟩]
  send _ := .ok { status := 200 }

/-- A name that the resolver takes to a public address. -/
theorem ssrf_safe_iff_sample :
    SsrfSafe sampleReqwest "http://example.com/".toList fun _ => publicAnswer :=
  (ssrf_safe_iff sampleReqwest sampleReqwest_lawful _ _).mpr (by decide)

/-- The resolver answers for the loopback address in brackets, and the system has a proxy. In
    both cases the connection is to an address that nobody has checked. -/
theorem unchecked_connection :
    ¬SsrfSafe sampleReqwest "http://[::1]/".toList (fun _ => publicAnswer) ∧
    ¬SsrfSafe sampleReqwest "http://example.com/".toList
      (fun _ => { publicAnswer with systemProxy := fun _ => some ⟨.v4 ⟨127, 0, 0, 1⟩, 7890⟩ }) := by
  constructor
  · intro h
    have hpinned := (h.pinned _ (List.mem_singleton_self _) _ (List.mem_singleton_self _)).1
    exact absurd hpinned (by decide)
  · intro h
    have hpinned := (h.pinned _ (List.mem_singleton_self _) _ (List.mem_singleton_self _)).1
    exact absurd hpinned (by decide)

end CampusAuth.Web
