import CampusAuth.Login.HttpTask

/- Requests that follow redirects (`login/http_login.rs`, `send_with_redirects`).

   Every hop sends one request and reads where the answer points. `follow` is what a
   redirect makes of the state of the loop, `Chain` the shape of the requests a loop sends;
   what a redirect keeps, all later requests keep (`Chain.keeps`). The URL library is a
   parameter, and the server may answer anything. -/
namespace CampusAuth.Login
open Lib

/-- The most redirects that are followed. -/
def maxRedirects : Nat := 5

/-- What is used of the URL library: `port` is `port_or_known_default`. -/
structure UrlLib (U : Type*) where
  parse : Text → Except Text U
  join : U → Text → Except Text U
  scheme : U → Text
  host : U → Option Text
  port : U → Option Nat

namespace UrlLib
variable {U : Type*} (L : UrlLib U)

def SameOrigin (origin target : U) : Prop :=
  L.scheme target = L.scheme origin ∧ L.host target = L.host origin ∧ L.port target = L.port origin

instance (origin target : U) : Decidable (L.SameOrigin origin target) :=
  inferInstanceAs (Decidable (_ ∧ _ ∧ _))

/-- From the encrypted to the plain protocol. -/
def Downgrade (origin target : U) : Prop :=
  L.scheme origin = "https".toList ∧ L.scheme target = "http".toList

instance (origin target : U) : Decidable (L.Downgrade origin target) :=
  inferInstanceAs (Decidable (_ ∧ _))

end UrlLib

/-- The headers of a template: a line for each, the name before the first colon. -/
def parseHeaders (raw : Text) : List (Text × Text) :=
  (raw.splitOn '\n').filterMap fun line =>
    -- trimming takes the carriage return of a line as well
    let line := strip line
    match line.findIdx? (· == ':') with
    | none => none
    | some i =>
      let name := strip (line.take i)
      if name.isEmpty then none else some (name, strip (line.drop (i + 1)))

/-- A request as it goes out. -/
structure SentRequest (U : Type*) where
  method : HttpRequestMethod
  url : U
  headers : List (Text × Text)
  body : Option Text

/-- The state of the loop in front of a request. -/
structure RedirectHop (U : Type*) where
  current : U
  method : HttpRequestMethod
  headers : Text
  body : Text

/-- A response with the redirect target it names. -/
structure Reply where
  response : HttpResponse
  location : Option Text := none

def Reply.code (reply : Reply) : Nat := reply.response.status.code

/-- What answers a hop; `late` when the time of the whole request is used up before. -/
structure HopAnswer where
  late : Bool := false
  reply : Except Text Reply := .error []

def isRedirect (code : Nat) : Bool := [301, 302, 303, 307, 308].contains code

variable {U : Type*} (L : UrlLib U)

/-- The request of a hop. -/
def RedirectHop.request (hop : RedirectHop U) : SentRequest U :=
  let sendsBody := hop.method == .post && !hop.body.isEmpty
  let parsed := parseHeaders hop.headers
  let typed := parsed.any fun h => h.1.map Char.toLower == "content-type".toList
  { method := hop.method
    url := hop.current
    headers := parsed ++ if sendsBody && !typed then
      [("Content-Type".toList, "application/x-www-form-urlencoded".toList)] else []
    body := if sendsBody then some hop.body else none }

/-- The answer turns the later requests into GETs. -/
def Demotes (code : Nat) (method : HttpRequestMethod) : Prop :=
  code = 303 ∨ ((code = 301 ∨ code = 302) ∧ method = .post)

instance (code : Nat) (method : HttpRequestMethod) : Decidable (Demotes code method) :=
  inferInstanceAs (Decidable (_ ∨ _))

/-- The hop behind a redirect. -/
def follow (hop : RedirectHop U) (code : Nat) (location : Text) : Except Text (RedirectHop U) :=
  match L.join hop.current location with
  | .error e => .error e
  | .ok next =>
    if ¬(L.scheme next = "http".toList ∨ L.scheme next = "https".toList) ∨ L.host next = none then
      .error "直连请求重定向地址不是 HTTP(S) URL".toList
    else if L.Downgrade hop.current next then .error "直连请求拒绝 HTTPS 降级跳转".toList
    else
      let headers := if L.SameOrigin hop.current next then hop.headers else []
      let body := if L.SameOrigin hop.current next then hop.body else []
      if Demotes code hop.method then .ok { current := next, method := .get, headers, body := [] }
      else .ok { current := next, method := hop.method, headers, body }

/-- What the loop makes of an answer: it returns, or goes on behind a redirect. -/
def answerHop (stop : Bool) (hop : RedirectHop U) (lastHop : Bool) (reply : Reply) :
    Except Text Reply ⊕ RedirectHop U :=
  if !isRedirect reply.code then .inl (.ok reply)
  else if stop then .inl (.ok reply)
  else
    match reply.location with
    | none => .inl (.ok reply)
    | some location =>
      if lastHop then .inl (.error "直连请求重定向次数过多".toList)
      else
        match follow L hop reply.code location with
        | .error e => .inl (.error e)
        | .ok next => .inr next

/-- The loop with `left` redirects to go: the requests it sends and what it returns. -/
def sendFrom (stop : Bool) (answers : Nat → HopAnswer) :
    Nat → Nat → RedirectHop U → List (SentRequest U) × Except Text Reply
  | left, i, hop =>
    if (answers i).late then ([], .error "直连请求超时".toList)
    else
      match (answers i).reply with
      | .error e => ([hop.request], .error e)
      | .ok reply =>
        match answerHop L stop hop (left == 0) reply, left with
        | .inl result, _ => ([hop.request], result)
        | .inr _, 0 => ([hop.request], .error "直连请求重定向次数过多".toList)
        | .inr next, left + 1 =>
          let rest := sendFrom stop answers left (i + 1) next
          (hop.request :: rest.1, rest.2)

def sendWithRedirects (method : HttpRequestMethod) (url headers body : Text) (stop : Bool)
    (answers : Nat → HopAnswer) : List (SentRequest U) × Except Text Reply :=
  match L.parse url with
  | .error e => ([], .error e)
  | .ok current => sendFrom L stop answers maxRedirects 0 { current, method, headers, body }

/-! ## One redirect -/

/-- Nothing of the template is left. -/
def RedirectHop.Cleared (hop : RedirectHop U) : Prop := hop.headers = [] ∧ hop.body = []

/-- A bodyless GET. -/
def RedirectHop.Bare (hop : RedirectHop U) : Prop := hop.method = .get ∧ hop.body = []

theorem RedirectHop.Cleared.request {hop : RedirectHop U} (h : hop.Cleared) :
    hop.request.headers = [] ∧ hop.request.body = none := by
  obtain ⟨hheaders, hbody⟩ := h
  simp [RedirectHop.request, hheaders, hbody, parseHeaders, strip]

theorem RedirectHop.Bare.request {hop : RedirectHop U} (h : hop.Bare) :
    hop.request.method = .get ∧ hop.request.body = none := by
  obtain ⟨hmethod, hbody⟩ := h
  exact ⟨hmethod, by simp [RedirectHop.request, hbody]⟩

section
variable {L} {hop next : RedirectHop U} {code : Nat} {location : Text}

/-- What a redirect does to the state of the loop. -/
structure Follows (L : UrlLib U) (hop next : RedirectHop U) (code : Nat) : Prop where
  scheme : L.scheme next.current = "http".toList ∨ L.scheme next.current = "https".toList
  guarded : ¬L.Downgrade hop.current next.current
  headers : next.headers = if L.SameOrigin hop.current next.current then hop.headers else []
  demoted : Demotes code hop.method → next.Bare
  kept : ¬Demotes code hop.method → next.method = hop.method ∧
    next.body = if L.SameOrigin hop.current next.current then hop.body else []

theorem follows (h : follow L hop code location = .ok next) : Follows L hop next code := by
  unfold follow at h
  split at h
  · cases h
  · next target _ =>
    split at h
    · cases h
    · next hscheme =>
      rw [not_or, not_not] at hscheme
      split at h
      · cases h
      · next hguard =>
        dsimp only at h
        by_cases hd : Demotes code hop.method
        · rw [if_pos hd] at h
          cases h
          exact ⟨hscheme.1, hguard, rfl, fun _ => ⟨rfl, rfl⟩, fun hn => absurd hd hn⟩
        · rw [if_neg hd] at h
          cases h
          exact ⟨hscheme.1, hguard, rfl, fun hd' => absurd hd' hd, fun _ => ⟨rfl, rfl⟩⟩

theorem Follows.body (h : Follows L hop next code) (hbody : hop.body = []) : next.body = [] := by
  by_cases hd : Demotes code hop.method
  · exact (h.demoted hd).2
  · rw [(h.kept hd).2, hbody, ite_self]

theorem Follows.bare (h : Follows L hop next code) (hbare : hop.Bare) : next.Bare := by
  by_cases hd : Demotes code hop.method
  · exact h.demoted hd
  · exact ⟨(h.kept hd).1.trans hbare.1, h.body hbare.2⟩

theorem Follows.cleared (h : Follows L hop next code) (hclear : hop.Cleared) : next.Cleared := by
  refine ⟨?_, h.body hclear.2⟩
  rw [h.headers, hclear.1, ite_self]

/-- A hop to another origin clears the template. -/
theorem Follows.leaves (h : Follows L hop next code)
    (hleft : ¬L.SameOrigin hop.current next.current) : next.Cleared := by
  refine ⟨by rw [h.headers, if_neg hleft], ?_⟩
  by_cases hd : Demotes code hop.method
  · exact (h.demoted hd).2
  · rw [(h.kept hd).2, if_neg hleft]

theorem Follows.https (h : Follows L hop next code)
    (hsecure : L.scheme hop.current = "https".toList) :
    L.scheme next.current = "https".toList :=
  h.scheme.resolve_left fun hplain => h.guarded ⟨hsecure, hplain⟩

/-- Still at the first origin, or cleared. -/
def RedirectHop.Clean (L : UrlLib U) (first : U) (hop : RedirectHop U) : Prop :=
  L.SameOrigin first hop.current ∨ hop.Cleared

theorem Follows.clean {first : U} (h : Follows L hop next code) (hclean : hop.Clean L first) :
    next.Clean L first := by
  rcases hclean with ⟨hscheme, hhost, hport⟩ | hclear
  · by_cases hsame : L.SameOrigin hop.current next.current
    · obtain ⟨hscheme', hhost', hport'⟩ := hsame
      exact .inl ⟨hscheme'.trans hscheme, hhost'.trans hhost, hport'.trans hport⟩
    · exact .inr (h.leaves hsame)
  · exact .inr (h.cleared hclear)

end

/-! ## The requests of a loop -/

/-- The requests sent from hop `i` on. -/
inductive Chain (answers : Nat → HopAnswer) : Nat → RedirectHop U → List (SentRequest U) → Prop
  | late (i : Nat) (hop : RedirectHop U) : Chain answers i hop []
  | last (i : Nat) (hop : RedirectHop U) : Chain answers i hop [hop.request]
  | redirect {i : Nat} {hop next : RedirectHop U} {sent : List (SentRequest U)} {reply : Reply}
      (answered : (answers i).reply = .ok reply) (followed : Follows L hop next reply.code)
      (rest : Chain answers (i + 1) next sent) : Chain answers i hop (hop.request :: sent)

section
variable {L} {answers : Nat → HopAnswer} {stop : Bool} {i : Nat} {hop : RedirectHop U}
  {sent : List (SentRequest U)}

theorem follows_answerHop {next : RedirectHop U} {lastHop : Bool} {reply : Reply}
    (h : answerHop L stop hop lastHop reply = .inr next) :
    Follows L hop next reply.code ∧ stop = false := by
  unfold answerHop at h
  split at h
  · cases h
  · split at h
    · cases h
    · next hstop =>
      split at h
      · cases h
      · split at h
        · cases h
        · split at h
          · cases h
          · next hnext => cases h; exact ⟨follows hnext, by simpa using hstop⟩

theorem chain_sendFrom (left i : Nat) (hop : RedirectHop U) :
    Chain L answers i hop (sendFrom L stop answers left i hop).1 := by
  induction left generalizing i hop with
  | zero =>
    unfold sendFrom
    split
    · exact .late i hop
    · split
      · exact .last i hop
      · split
        · exact .last i hop
        · exact .last i hop
        · next hzero => cases hzero
  | succ left ih =>
    unfold sendFrom
    split
    · exact .late i hop
    · split
      · exact .last i hop
      · next reply hreply =>
        split
        · exact .last i hop
        · next hzero => cases hzero
        · next hanswer heq =>
          cases heq
          exact .redirect hreply (follows_answerHop hanswer).1 (ih (i + 1) _)

theorem length_sendFrom (left i : Nat) (hop : RedirectHop U) :
    (sendFrom L stop answers left i hop).1.length ≤ left + 1 := by
  induction left generalizing i hop with
  | zero =>
    unfold sendFrom
    split
    · exact Nat.zero_le _
    · split
      · exact Nat.le_refl _
      · split
        · exact Nat.le_refl _
        · exact Nat.le_refl _
        · next hzero => cases hzero
  | succ left ih =>
    unfold sendFrom
    split
    · exact Nat.zero_le _
    · split
      · exact Nat.succ_le_succ (Nat.zero_le _)
      · split
        · exact Nat.succ_le_succ (Nat.zero_le _)
        · exact Nat.succ_le_succ (Nat.zero_le _)
        · next heq =>
          cases heq
          exact Nat.succ_le_succ (ih (i + 1) _)

/-- A loop that stops at redirects sends one request and returns its answer. -/
theorem sendFrom_stop {left i : Nat} {r : SentRequest U} {after : List (SentRequest U)}
    {reply : Reply} (hsent : (sendFrom L true answers left i hop).1 = r :: after)
    (hreply : (answers i).reply = .ok reply) :
    after = [] ∧ (sendFrom L true answers left i hop).2 = .ok reply := by
  have hanswer : ∀ lastHop, answerHop L true hop lastHop reply = .inl (.ok reply) := by
    intro lastHop
    unfold answerHop
    split <;> rfl
  unfold sendFrom at hsent ⊢
  split at hsent
  · cases hsent
  · next hlate =>
    simp only [hreply, hanswer] at hsent ⊢
    rw [if_neg hlate]
    simp only [List.cons.injEq] at hsent
    exact ⟨hsent.2.symm, rfl⟩

/-- The rest of a chain from one of its requests on, with what its hops keep. -/
theorem Chain.split {P : RedirectHop U → Prop} (h : Chain L answers i hop sent)
    (hstep : ∀ {hop next : RedirectHop U} {code : Nat}, Follows L hop next code → P hop → P next)
    (hP : P hop) {before after : List (SentRequest U)} {r : SentRequest U}
    (hsent : sent = before ++ r :: after) :
    ∃ hop', P hop' ∧ r = hop'.request ∧ Chain L answers (i + before.length) hop' (r :: after) := by
  induction h generalizing before with
  | late i hop =>
    exact absurd hsent.symm (List.append_ne_nil_of_right_ne_nil before (List.cons_ne_nil r after))
  | last i hop =>
    cases before with
    | nil =>
      cases hsent
      exact ⟨hop, hP, rfl, .last i hop⟩
    | cons b before =>
      rw [List.cons_append, List.cons.injEq] at hsent
      exact absurd hsent.2.symm
        (List.append_ne_nil_of_right_ne_nil before (List.cons_ne_nil r after))
  | @redirect i hop next sent reply answered followed rest ih =>
    cases before with
    | nil =>
      cases hsent
      exact ⟨hop, hP, rfl, .redirect answered followed rest⟩
    | cons b before =>
      rw [List.cons_append, List.cons.injEq] at hsent
      obtain ⟨hop', hP', hr, hchain⟩ := ih (hstep followed hP) hsent.2
      refine ⟨hop', hP', hr, ?_⟩
      rw [List.length_cons, show i + (before.length + 1) = i + 1 + before.length by omega]
      exact hchain

/-- What every redirect keeps holds of the hops of all requests. -/
theorem Chain.keeps {P : RedirectHop U → Prop} (h : Chain L answers i hop sent)
    (hstep : ∀ {hop next : RedirectHop U} {code : Nat}, Follows L hop next code → P hop → P next)
    (hP : P hop) {r : SentRequest U} (hr : r ∈ sent) : ∃ hop', P hop' ∧ r = hop'.request := by
  obtain ⟨before, after, hsent⟩ := List.append_of_mem hr
  obtain ⟨hop', hP', hr', _⟩ := h.split hstep hP hsent
  exact ⟨hop', hP', hr'⟩

end

/-! ## Redirect safety -/

/-- The law for the requests of one call and the answers they got. -/
structure RedirectSafe (stop : Bool) (answers : Nat → HopAnswer) (sent : List (SentRequest U))
    (result : Except Text Reply) : Prop where
  few : sent.length ≤ maxRedirects + 1
  /-- Behind a request to another origin than the first nothing of the template goes out. -/
  cleared : ∀ first before r after, sent.head? = some first → sent = before ++ r :: after →
    ¬L.SameOrigin first.url r.url → ∀ r' ∈ r :: after, r'.headers = [] ∧ r'.body = none
  guarded : sent.Pairwise fun r r' => ¬L.Downgrade r.url r'.url
  demoted : ∀ before r after reply, sent = before ++ r :: after →
    (answers before.length).reply = .ok reply → Demotes reply.code r.method →
    ∀ r' ∈ after, r'.method = .get ∧ r'.body = none
  stopped : stop = true → ∀ r after reply, sent = r :: after → (answers 0).reply = .ok reply →
    after = [] ∧ result = .ok reply

theorem pairwise_of_split {α : Type*} {R : α → α → Prop} {l : List α}
    (h : ∀ before x after, l = before ++ x :: after → ∀ y ∈ after, R x y) : l.Pairwise R := by
  induction l with
  | nil => exact .nil
  | cons x l ih =>
    refine .cons (h [] x l rfl) (ih fun before y after hl => ?_)
    exact h (x :: before) y after (by rw [hl]; rfl)

section
variable {L} {answers : Nat → HopAnswer} {i : Nat} {hop : RedirectHop U}
  {sent before after : List (SentRequest U)} {r : SentRequest U}

theorem Chain.head (h : Chain L answers i hop sent) {first : SentRequest U}
    (hfirst : sent.head? = some first) : first = hop.request := by
  cases h with
  | late => cases hfirst
  | last => exact (Option.some.inj hfirst).symm
  | redirect => exact (Option.some.inj hfirst).symm

theorem Chain.cleared (h : Chain L answers i hop sent) (hsent : sent = before ++ r :: after)
    (hleft : ¬L.SameOrigin hop.current r.url) :
    ∀ r' ∈ r :: after, r'.headers = [] ∧ r'.body = none := by
  obtain ⟨hop', hclean, rfl, hrest⟩ :=
    h.split (P := RedirectHop.Clean L hop.current) Follows.clean (.inl ⟨rfl, rfl, rfl⟩) hsent
  -- the request has left the origin, so its hop is cleared, and so are all behind it
  have hclear : hop'.Cleared := hclean.resolve_left hleft
  intro r' hr'
  obtain ⟨hop'', hclear', rfl⟩ := hrest.keeps Follows.cleared hclear hr'
  exact hclear'.request

theorem Chain.guarded (h : Chain L answers i hop sent) :
    sent.Pairwise fun r r' => ¬L.Downgrade r.url r'.url := by
  refine pairwise_of_split fun before r after hsent r' hr' hdown => ?_
  obtain ⟨hop', -, rfl, hrest⟩ :=
    h.split (P := fun _ => True) (fun _ _ => trivial) trivial hsent
  obtain ⟨hop'', hsecure, rfl⟩ := hrest.keeps
    (P := fun hop => L.scheme hop.current = "https".toList) Follows.https hdown.1
    (List.mem_cons_of_mem _ hr')
  have hne : "https".toList ≠ "http".toList := by decide
  exact hne (hsecure.symm.trans hdown.2)

theorem Chain.demoted (h : Chain L answers i hop sent) {reply : Reply}
    (hsent : sent = before ++ r :: after)
    (hreply : (answers (i + before.length)).reply = .ok reply)
    (hdemotes : Demotes reply.code r.method) :
    ∀ r' ∈ after, r'.method = .get ∧ r'.body = none := by
  obtain ⟨hop', -, rfl, hrest⟩ :=
    h.split (P := fun _ => True) (fun _ _ => trivial) trivial hsent
  intro r' hr'
  cases hrest with
  | last => cases hr'
  | redirect answered followed rest =>
    rw [hreply] at answered
    cases answered
    obtain ⟨hop'', hbare, rfl⟩ := rest.keeps Follows.bare (followed.demoted hdemotes) hr'
    exact hbare.request

end

/-- **Redirect safety** of every call, whatever the server answers. -/
theorem redirects_are_safe (method : HttpRequestMethod) (url headers body : Text) (stop : Bool)
    (answers : Nat → HopAnswer) :
    RedirectSafe L stop answers (sendWithRedirects L method url headers body stop answers).1
      (sendWithRedirects L method url headers body stop answers).2 := by
  unfold sendWithRedirects
  split
  · -- the URL of the template cannot be read: nothing is sent
    refine ⟨Nat.zero_le _, fun _ _ _ _ hfirst => ?_, .nil, fun before r after _ hsent => ?_,
      fun _ _ _ _ hsent => ?_⟩
    · cases hfirst
    · exact absurd hsent.symm (List.append_ne_nil_of_right_ne_nil before (List.cons_ne_nil r after))
    · cases hsent
  · next current _ =>
    have hchain : Chain L answers 0 ⟨current, method, headers, body⟩
        (sendFrom L stop answers maxRedirects 0 ⟨current, method, headers, body⟩).1 :=
      chain_sendFrom maxRedirects 0 _
    refine ⟨length_sendFrom maxRedirects 0 _, ?_, hchain.guarded, ?_, ?_⟩
    · intro first before r after hfirst hsent hleft
      rw [hchain.head hfirst] at hleft
      exact hchain.cleared hsent hleft
    · intro before r after reply hsent hreply
      exact hchain.demoted hsent (by rwa [Nat.zero_add])
    · rintro rfl r after reply hsent hreply
      exact sendFrom_stop hsent hreply

end CampusAuth.Login
