import Vocal.Ua.CallAgent

/-!
# The saved route set

What `saveRouteList` leaves as the route list. Its loop stands still at a url that is not a SIP url, so the list is only
ever saved from Record-Route headers that have none.
-/

namespace Vocal.Ua

open UaBase Vocal.Comp

variable {s : CallAgent} {reverse : Bool}

/-- The routes that a list of urls makes. -/
def routesOf (reverse : Bool) (urls : List BaseUrl) : List BaseUrl := if reverse then urls.reverse else urls

def clearRouteList : AgentM Unit := modifyAgent fun a => { a with myRouteList := [] }

/-- The loop of `saveRouteList` turn by turn: `continue` leaves the iterator where it is. -/
def routeTurns (reverse : Bool) : Nat → List BaseUrl → AgentM Unit
  | _, [] => pure ()
  | 0, _ :: _ => throw .outOfFuel
  | n + 1, .TEL_URL text :: rest => routeTurns reverse n (.TEL_URL text :: rest)
  | n + 1, url :: rest => do
    modifyAgent fun a =>
      { a with myRouteList := if reverse then url :: a.myRouteList else a.myRouteList ++ [url] }
    routeTurns reverse n rest

/-- The agent with other routes. -/
def CallAgent.withRoutes (s : CallAgent) (routes : List BaseUrl) : CallAgent :=
  { s with agent := { s.agent with myRouteList := routes } }

theorem run_clearRouteList (s : CallAgent) : clearRouteList s = .ok () (s.withRoutes []) := rfl

theorem run_routeTurns_sip {n : Nat} {url : BaseUrl} (hurl : url.isSip = true) (rest routes : List BaseUrl) :
    routeTurns reverse (n + 1) (url :: rest) (s.withRoutes routes) =
      routeTurns reverse n rest (s.withRoutes (if reverse then url :: routes else routes ++ [url])) := by
  cases url with
  | SIP_URL text => rfl
  | TEL_URL text => cases hurl

theorem run_routeTurns {urls : List BaseUrl} (hsip : ∀ url ∈ urls, url.isSip = true) {n : Nat} (hn : urls.length ≤ n)
    (routes : List BaseUrl) :
    routeTurns reverse n urls (s.withRoutes routes) =
      .ok () (s.withRoutes (if reverse then routesOf reverse urls ++ routes else routes ++ routesOf reverse urls)) := by
  induction urls generalizing n routes with
  | nil =>
    rw [routeTurns]
    cases reverse <;> simp [routesOf]
  | cons url urls ih =>
    obtain ⟨n, rfl⟩ : ∃ m, n = m + 1 := ⟨n - 1, by simp only [List.length_cons] at hn; omega⟩
    rw [run_routeTurns_sip (hsip url (List.mem_cons_self ..)),
      ih (fun u hu => hsip u (List.mem_cons_of_mem _ hu)) (Nat.le_of_succ_le_succ hn)]
    cases reverse <;> simp [routesOf]

theorem exit_routeTurns {urls : List BaseUrl} (htel : ∃ url ∈ urls, url.isSip = false) (n : Nat) (s : CallAgent) :
    exit (routeTurns reverse n urls) s = some .outOfFuel := by
  induction n generalizing urls s with
  | zero =>
    cases urls with
    | nil => obtain ⟨_, ⟨⟩, _⟩ := htel
    | cons url urls => rfl
  | succ n ih =>
    cases urls with
    | nil => obtain ⟨_, ⟨⟩, _⟩ := htel
    | cons url urls =>
      cases url with
      | TEL_URL text => exact ih htel s
      | SIP_URL text =>
        obtain ⟨url, hmem, hurl⟩ := htel
        rcases List.mem_cons.mp hmem with rfl | hmem
        · cases hurl
        · exact ih ⟨url, hmem, hurl⟩ _

theorem saveRoutes_eq (reverse : Bool) (urls : List BaseUrl) (s : CallAgent) :
    (∀ n, urls.length ≤ n → routeTurns reverse n urls s = saveRoutes reverse urls s) ∨
      exit (saveRoutes reverse urls) s = some .hang ∧ ∀ n, exit (routeTurns reverse n urls) s = some .outOfFuel := by
  induction urls generalizing s with
  | nil => exact Or.inl fun n _ => by cases n <;> rfl
  | cons url urls ih =>
    cases url with
    | TEL_URL text => exact Or.inr ⟨rfl, fun n => exit_routeTurns ⟨_, List.mem_cons_self .., rfl⟩ n s⟩
    | SIP_URL text =>
      rcases ih (s.withRoutes (if reverse then .SIP_URL text :: s.agent.myRouteList
        else s.agent.myRouteList ++ [.SIP_URL text])) with h | ⟨hhang, hturns⟩
      · refine Or.inl fun n hn => ?_
        obtain ⟨n, rfl⟩ : ∃ m, n = m + 1 := ⟨n - 1, by simp only [List.length_cons] at hn; omega⟩
        exact h n (Nat.le_of_succ_le_succ hn)
      · refine Or.inr ⟨hhang, fun n => ?_⟩
        cases n with
        | zero => rfl
        | succ n => exact hturns n

/-- The last contact goes behind the routes. -/
def saveContact (contactList : List BaseUrl) : AgentM Unit :=
  match contactList.getLast? with
  | some contact => modifyAgent fun a => { a with myRouteList := a.myRouteList ++ [contact] }
  | none => pure ()

/-- `saveRouteList` with its loop turn by turn. -/
def saveRouteTurns (n : Nat) (recordRouteList contactList : List BaseUrl) (reverse : Bool) : AgentM Unit := do
  clearRouteList
  routeTurns reverse n recordRouteList
  saveContact contactList

/-- The route list that a message is to leave: its SIP Record-Route urls and its last Contact. -/
def routeSet (recordRouteList contactList : List BaseUrl) (reverse : Bool) : List BaseUrl :=
  routesOf reverse (recordRouteList.filter (·.isSip)) ++ contactList.getLast?.toList

theorem run_saveRouteTurns {recordRouteList : List BaseUrl} (hsip : ∀ url ∈ recordRouteList, url.isSip = true) {n : Nat}
    (hn : recordRouteList.length ≤ n) (contactList : List BaseUrl) (s : CallAgent) :
    saveRouteTurns n recordRouteList contactList reverse s =
      .ok () (s.withRoutes (routeSet recordRouteList contactList reverse)) := by
  have hloop : routeTurns reverse n recordRouteList (s.withRoutes []) =
      .ok () (s.withRoutes (routesOf reverse recordRouteList)) := by
    rw [run_routeTurns hsip hn, List.append_nil, List.nil_append, ite_self]
  have hall : recordRouteList.filter (·.isSip) = recordRouteList := List.filter_eq_self.mpr hsip
  rw [saveRouteTurns, run_bind_ok (run_clearRouteList s), run_bind_ok hloop]
  rw [routeSet, hall, saveContact]
  cases contactList.getLast? with
  | none =>
    rw [Option.toList_none, List.append_nil]
    rfl
  | some contact => rfl

theorem exit_saveRouteTurns {recordRouteList : List BaseUrl} (htel : ∃ url ∈ recordRouteList, url.isSip = false)
    (n : Nat) (contactList : List BaseUrl) (reverse : Bool) (s : CallAgent) :
    exit (saveRouteTurns n recordRouteList contactList reverse) s = some .outOfFuel := by
  rw [saveRouteTurns, exit_bind_ok (run_clearRouteList s)]
  exact exit_bind_some (exit_routeTurns htel n _)

/-- The loop of `saveRouteList` ends, and the routes are those of the message, exactly when none of its Record-Route urls
is of another kind. -/
theorem saveRouteList_ends_iff (recordRouteList contactList : List BaseUrl) (reverse : Bool) (s : CallAgent) :
    (∃ n, saveRouteTurns n recordRouteList contactList reverse s =
        .ok () (s.withRoutes (routeSet recordRouteList contactList reverse))) ↔
      ∀ url ∈ recordRouteList, url.isSip = true := by
  constructor
  · rintro ⟨n, hn⟩
    by_contra hall
    have htel : ∃ url ∈ recordRouteList, url.isSip = false := by
      simpa only [not_forall, Bool.not_eq_true, exists_prop] using hall
    have hexit := exit_saveRouteTurns htel n contactList reverse s
    rw [exit_of_ok hn] at hexit
    cases hexit
  · exact fun hsip => ⟨_, run_saveRouteTurns hsip (Nat.le_refl _) contactList s⟩

/-- A call of a peer behind a proxy. -/
def proxiedCall : InviteMsg where
  cseq := 1
  toUrl := .SIP_URL "sip:bob@example.com"
  fromUrl := .SIP_URL "sip:alice@example.com"
  contactHere := false
  contactList := [.SIP_URL "sip:alice@10.0.0.1"]
  recordRouteList := [.SIP_URL "sip:proxy.example.com", .TEL_URL "tel:+15551234"]
  sdp := none

/-- The loop does not get past a tel url. -/
theorem not_saveRouteList_ends :
    ¬ ∃ n, saveRouteTurns n proxiedCall.recordRouteList proxiedCall.contactList false (.fresh .A_SERVER proxiedCall) =
      .ok () ((CallAgent.fresh .A_SERVER proxiedCall).withRoutes
        (routeSet proxiedCall.recordRouteList proxiedCall.contactList false)) := by
  rintro ⟨n, hn⟩
  have htel : ∃ url ∈ proxiedCall.recordRouteList, url.isSip = false := ⟨.TEL_URL "tel:+15551234", by decide, rfl⟩
  have hexit := exit_saveRouteTurns htel n proxiedCall.contactList false (.fresh .A_SERVER proxiedCall)
  rw [exit_of_ok hn] at hexit
  cases hexit

theorem saveRouteList_eq (recordRouteList contactList : List BaseUrl) (reverse : Bool) (s : CallAgent) :
    saveRouteList recordRouteList contactList reverse s = (do
      saveRoutes reverse recordRouteList
      saveContact contactList : AgentM Unit) (s.withRoutes []) := rfl

/-- `saveRouteList`, which has the loop in one piece, gives what the turns give, and hangs where they go on for ever. -/
theorem saveRouteList_turns (recordRouteList contactList : List BaseUrl) (reverse : Bool) (s : CallAgent) :
    saveRouteTurns recordRouteList.length recordRouteList contactList reverse s =
        saveRouteList recordRouteList contactList reverse s ∨
      exit (saveRouteList recordRouteList contactList reverse) s = some .hang ∧
        ∀ n, exit (saveRouteTurns n recordRouteList contactList reverse) s = some .outOfFuel := by
  rcases saveRoutes_eq reverse recordRouteList (s.withRoutes []) with h | ⟨hhang, hturns⟩
  · left
    have hloop := h _ (Nat.le_refl _)
    rw [saveRouteList_eq, saveRouteTurns, run_bind_ok (run_clearRouteList s)]
    cases hrun : saveRoutes reverse recordRouteList (s.withRoutes []) with
    | ok a t => rw [run_bind_ok (hloop.trans hrun), run_bind_ok hrun]
    | error e t => rw [run_bind_error (hloop.trans hrun), run_bind_error hrun]
  · refine Or.inr ⟨?_, fun n => ?_⟩
    · rw [exit, saveRouteList_eq, ← exit]
      exact exit_bind_some hhang
    rw [saveRouteTurns, exit_bind_ok (run_clearRouteList s)]
    exact exit_bind_some (hturns n)

end Vocal.Ua
