import CampusAuth.Lib.Ip
import CampusAuth.Lib.Numerals
import CampusAuth.Lib.StableSort

/- The interfaces in the order of their default routes (`network/detect.rs`,
   `prioritize_linux_default_route`).

   The routes are sorted by their metric, the interfaces by the position of their first route. The
   gateway is marked before, by a search of its own for the first route whose device is listed.
   `prioritized` says that the two searches agree. -/
namespace CampusAuth.Network
open Lib

structure InterfaceInfo where
  name : Text
  ipv4 : Ipv4Addr
  gateway : Option Ipv4Addr := none
  isWifi : Bool := false
  ssid : Option Text := none
  mac : Option Text := none
  deriving DecidableEq, Repr

structure DefaultRoute where
  device : Text
  gateway : Option Ipv4Addr
  metric : Nat
  deriving DecidableEq, Repr

/-! ## The source -/

def parseIpv4 (text : Text) : Option Ipv4Addr :=
  match readIpv4 text with
  | some (v4, []) => some v4
  | _ => none

/-- The word behind the first `key` that has one. -/
def valueOf (key : Text) : List Text → Option Text
  | first :: second :: parts => if first = key then some second else valueOf key (second :: parts)
  | _ => none

/-- The default route of a line. -/
def routeOf (line : Text) : Option DefaultRoute :=
  let parts := words isWhitespace line
  if parts.head? ≠ some "default".toList then none
  else
    (valueOf "dev".toList parts).map fun device =>
      { device
        gateway := (valueOf "via".toList parts).bind parseIpv4
        metric := ((valueOf "metric".toList parts).bind (parseUnsigned (2 ^ 32))).getD 0 }

/-- The routes of a text. The end of a line has no words, whether it is written with a carriage
    return or not. -/
def defaultRoutes (text : Text) : List DefaultRoute := (text.splitOn '\n').filterMap routeOf

def isListed (interfaces : List InterfaceInfo) (route : DefaultRoute) : Bool :=
  interfaces.any fun i => route.device == i.name

def mark (primary : DefaultRoute) (i : InterfaceInfo) : InterfaceInfo :=
  { i with gateway := if primary.device = i.name then primary.gateway else none }

/-- The position of the first route of the interface. Where there is none the source takes a
    number behind all positions, here that is the number of routes. -/
def rank (routes : List DefaultRoute) (i : InterfaceInfo) : Nat :=
  routes.findIdx fun route => route.device == i.name

def prioritizeLinuxDefaultRoute (interfaces : List InterfaceInfo) (text : Text) :
    List InterfaceInfo :=
  let routes := sortByKey DefaultRoute.metric (defaultRoutes text)
  let marked :=
    match routes.find? (isListed interfaces) with
    | some primary => interfaces.map (mark primary)
    | none => interfaces
  sortByKey (rank routes) marked

/-! ## What is asked of the order -/

/-- The interface without its gateway. -/
def InterfaceInfo.bare (i : InterfaceInfo) : InterfaceInfo := { i with gateway := none }

/-- No default route names the interface. -/
def InterfaceInfo.unrouted (routes : List DefaultRoute) (i : InterfaceInfo) : Bool :=
  !routes.any fun route => route.device == i.name

structure Prioritized (interfaces : List InterfaceInfo) (routes : List DefaultRoute)
    (result : List InterfaceInfo) : Prop where
  perm : (result.map (·.bare)).Perm (interfaces.map (·.bare))
  order : (result.filter (·.unrouted routes)).map (·.bare) =
    (interfaces.filter (·.unrouted routes)).map (·.bare)
  /-- The first of the listed routes with the least metric comes first and has its gateway. -/
  primary : (∃ route ∈ routes, isListed interfaces route) →
    ∃ route, FirstLeast DefaultRoute.metric (isListed interfaces) routes route ∧
      (∃ first ∈ result.head?, first.name = route.device) ∧
      ∀ i ∈ result, i.gateway = if i.name = route.device then route.gateway else none
  /-- Without one the gateways stay. -/
  unmarked : (¬∃ route ∈ routes, isListed interfaces route) → result.Perm interfaces

/-! ## The two searches -/

section
variable {interfaces : List InterfaceInfo} {routes : List DefaultRoute}

@[simp] theorem name_mark (primary : DefaultRoute) (i : InterfaceInfo) :
    (mark primary i).name = i.name := rfl

@[simp] theorem bare_mark (primary : DefaultRoute) (i : InterfaceInfo) :
    (mark primary i).bare = i.bare := rfl

@[simp] theorem unrouted_mark (primary : DefaultRoute) (i : InterfaceInfo) :
    (mark primary i).unrouted routes = i.unrouted routes := rfl

theorem rank_unrouted {i : InterfaceInfo} (h : i.unrouted routes = true) :
    rank routes i = routes.length := by
  refine List.findIdx_eq_length.mpr fun route hroute => ?_
  simp only [InterfaceInfo.unrouted, Bool.not_eq_true', List.any_eq_false] at h
  simpa using h route hroute

/-- Sorting the routes does not change whose there are. -/
theorem unrouted_sorted (i : InterfaceInfo) :
    i.unrouted (sortByKey DefaultRoute.metric routes) = i.unrouted routes := by
  have hperm := sortByKey_perm DefaultRoute.metric routes
  unfold InterfaceInfo.unrouted
  rw [hperm.any_eq]

/-- Those without a route are ranked alike, so they stay as they stand. -/
theorem order_kept (l : List InterfaceInfo) :
    (sortByKey (rank (sortByKey DefaultRoute.metric routes)) l).filter (·.unrouted routes) =
      l.filter (·.unrouted routes) := by
  refine sortByKey_filter _ fun a _ b _ ha hb => ?_
  rw [rank_unrouted ((unrouted_sorted a).trans ha), rank_unrouted ((unrouted_sorted b).trans hb)]

/-- The interface that is ranked first has the first route with a listed device. -/
theorem rank_primary {primary : DefaultRoute} (h : routes.find? (isListed interfaces) = some primary)
    {i : InterfaceInfo} (hi : i ∈ interfaces)
    (hleast : ∀ j ∈ interfaces, rank routes i ≤ rank routes j) : i.name = primary.device := by
  obtain ⟨hlisted, before, after, rfl, hbefore⟩ := List.find?_eq_some_iff_append.mp h
  have hrank : ∀ j ∈ interfaces, rank (before ++ primary :: after) j =
      before.length + if primary.device = j.name then 0 else rank after j + 1 := by
    intro j hj
    have hnone : before.findIdx (fun route => route.device == j.name) = before.length := by
      refine List.findIdx_eq_length.mpr fun route hroute => ?_
      have hunlisted := hbefore route hroute
      simp only [isListed, Bool.not_eq_true', List.any_eq_false] at hunlisted
      simpa using hunlisted j hj
    unfold rank
    rw [List.findIdx_append, hnone, if_neg (Nat.lt_irrefl _), List.findIdx_cons, Nat.add_comm]
    by_cases hdevice : primary.device = j.name
    · simp [hdevice]
    · simp [beq_false_of_ne hdevice, hdevice]
  obtain ⟨j, hj, hdevice⟩ := List.any_eq_true.mp hlisted
  have hfirst := hleast j hj
  rw [hrank i hi, hrank j hj, if_pos (eq_of_beq hdevice)] at hfirst
  by_contra hne
  rw [if_neg fun heq => hne heq.symm] at hfirst
  omega

theorem first_primary {primary : DefaultRoute}
    (h : (sortByKey DefaultRoute.metric routes).find? (isListed interfaces) = some primary)
    (hne : interfaces ≠ []) :
    ∃ first ∈ (sortByKey (rank (sortByKey DefaultRoute.metric routes))
      (interfaces.map (mark primary))).head?, first.name = primary.device := by
  have hsorted := sortByKey_pairwise (rank (sortByKey DefaultRoute.metric routes))
    (interfaces.map (mark primary))
  have hmem : ∀ i, i ∈ sortByKey (rank (sortByKey DefaultRoute.metric routes))
      (interfaces.map (mark primary)) ↔ i ∈ interfaces.map (mark primary) :=
    fun _ => mem_sortByKey
  generalize sortByKey (rank (sortByKey DefaultRoute.metric routes))
    (interfaces.map (mark primary)) = result at hsorted hmem
  cases result with
  | nil =>
    obtain ⟨i, rest, rfl⟩ := List.exists_cons_of_ne_nil hne
    exact absurd ((hmem (mark primary i)).mpr List.mem_cons_self) List.not_mem_nil
  | cons first result =>
    obtain ⟨i, hi, hmark⟩ := List.mem_map.mp ((hmem first).mp List.mem_cons_self)
    refine ⟨first, rfl, ?_⟩
    subst hmark
    show i.name = primary.device
    refine rank_primary h hi fun j hj => ?_
    rcases List.mem_cons.mp ((hmem (mark primary j)).mpr (List.mem_map_of_mem hj)) with heq | htail
    · have hname : (mark primary j).name = (mark primary i).name := congrArg InterfaceInfo.name heq
      simp only [name_mark] at hname
      unfold rank
      rw [hname]
    · have hle : rank _ (mark primary i) ≤ rank _ (mark primary j) :=
        List.rel_of_pairwise_cons hsorted htail
      exact hle

/-- The interfaces in the order of a search that marks the same. -/
theorem prioritized (interfaces : List InterfaceInfo) (text : Text) :
    Prioritized interfaces (defaultRoutes text) (prioritizeLinuxDefaultRoute interfaces text) := by
  unfold prioritizeLinuxDefaultRoute
  dsimp only
  generalize hroutes : defaultRoutes text = routes
  cases hfind : (sortByKey DefaultRoute.metric routes).find? (isListed interfaces) with
  | none =>
    have hnone : ¬∃ route ∈ routes, isListed interfaces route := by
      rintro ⟨route, hroute, hlisted⟩
      exact List.find?_eq_none.mp hfind route (mem_sortByKey.mpr hroute) hlisted
    have hperm := sortByKey_perm (rank (sortByKey DefaultRoute.metric routes)) interfaces
    refine ⟨hperm.map _, congrArg _ (order_kept interfaces), fun h => absurd h hnone, fun _ => hperm⟩
  | some primary =>
    have hperm := sortByKey_perm (rank (sortByKey DefaultRoute.metric routes))
      (interfaces.map (mark primary))
    have hbare : (interfaces.map (mark primary)).map (·.bare) = interfaces.map (·.bare) := by
      simp [Function.comp_def]
    have hlisted : ∃ route ∈ routes, isListed interfaces route :=
      ⟨primary, mem_sortByKey.mp (List.mem_of_find?_eq_some hfind), List.find?_some hfind⟩
    refine ⟨hbare ▸ hperm.map _, ?_, fun _ => ⟨primary, firstLeast_of_find hfind, ?_, ?_⟩,
      fun hnone => absurd hlisted hnone⟩
    · rw [order_kept, List.filter_map, List.map_map]
      rfl
    · have hne : interfaces ≠ [] := by
        rintro rfl
        simp [isListed] at hlisted
      exact first_primary hfind hne
    · intro i hi
      obtain ⟨j, _, rfl⟩ := List.mem_map.mp (hperm.mem_iff.mp hi)
      simp [mark, eq_comm]

end
end CampusAuth.Network
