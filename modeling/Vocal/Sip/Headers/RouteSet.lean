import Vocal.Sip.Headers.Observers

/-!
# The route set of a new command

A command that is made for a response, or for a request that was received, gets its Route headers from the
Record-Route headers of that message: reversed for a response, in their order for a request. `RouteSet` has the
two constructors of `SipCommand` and what they put into the new command.
-/

namespace Vocal.Sip

open HeaderLists

/-- What the constructors do with headers of other classes: `SipFrom(SipTo)`, `SipTo(SipFrom)`, `incrCSeq` and
the default `SipMaxForwards`. -/
class CommandHeader (K : Type) extends SipHeader K where
  fromOfTo : K → K
  toOfFrom : K → K
  incrCSeq : K → K
  maxForwards : K

/-- `SipCommand`, with its headers parsed when they are asked for, and the url of its request line. -/
structure LazyCommand (K : Type) where
  requestUrl : Option Url.BaseUrl
  local_ip : Data
  myHeaderList : HeaderLists (Header K)

/-- `StatusMsg`, with its headers parsed when they are asked for. -/
structure LazyStatus (K : Type) where
  statusCode : Int
  local_ip : Data
  myHeaderList : HeaderLists (Header K)

namespace RouteSet

variable {K : Type} {c c' : HeaderLists (Header K)} {local_ip : Data} {l : List (LazyHeader (Header K))}

/-! ### Adding a route -/

/-- `setRoute` with the check of the number of routes, as `routePushFront` and `routePushBack` have it. -/
def routePush (c : HeaderLists (Header K)) (local_ip : Data) (item : SipRoute) (index : Int) :
    Option (HeaderLists (Header K)) :=
  (c.appendHeader .SIP_ROUTE_HDR (some (.route item)) local_ip index).bind fun c' =>
    if c'.getNumHeaders .SIP_ROUTE_HDR = c.getNumHeaders .SIP_ROUTE_HDR + 1 then some c' else none

def routePushFront (c : HeaderLists (Header K)) (local_ip : Data) (item : SipRoute) :
    Option (HeaderLists (Header K)) := routePush c local_ip item 0

def routePushBack (c : HeaderLists (Header K)) (local_ip : Data) (item : SipRoute) :
    Option (HeaderLists (Header K)) := routePush c local_ip item (-1)

/-- The entry of a route. -/
def entry (local_ip : Data) (rr : SipRecordRoute) : LazyHeader (Header K) :=
  .ofHeader .SIP_ROUTE_HDR (some (.route (.ofRecordRoute rr))) local_ip

theorem routePush_eq {rr : SipRecordRoute} {index : Int}
    (hput : putAt (c .SIP_ROUTE_HDR) (entry local_ip rr) index = some l)
    (hlength : l.length = (c .SIP_ROUTE_HDR).length + 1) :
    routePush c local_ip (.ofRecordRoute rr) index = some (Function.update c .SIP_ROUTE_HDR l) := by
  unfold routePush
  rw [appendHeader_eq]
  show (Option.map _ (putAt (c .SIP_ROUTE_HDR) (entry local_ip rr) index)).bind _ = _
  rw [hput, Option.map_some, Option.bind_some]
  refine if_pos ?_
  unfold getNumHeaders
  rw [Function.update_self, hlength]

theorem routePushFront_eq (c : HeaderLists (Header K)) (local_ip : Data) (rr : SipRecordRoute) :
    routePushFront c local_ip (.ofRecordRoute rr) =
      some (Function.update c .SIP_ROUTE_HDR (entry local_ip rr :: c .SIP_ROUTE_HDR)) :=
  routePush_eq (by simp [putAt]) rfl

theorem routePushBack_eq (c : HeaderLists (Header K)) (local_ip : Data) (rr : SipRecordRoute) :
    routePushBack c local_ip (.ofRecordRoute rr) =
      some (Function.update c .SIP_ROUTE_HDR (c .SIP_ROUTE_HDR ++ [entry local_ip rr])) :=
  routePush_eq (by simp [putAt]) (by simp)

theorem appendHeader_of_ne {type other : SipHeaderType} {p : Option (Header K)} {pos : Int}
    (happend : c.appendHeader type p local_ip pos = some c') (h : other ≠ type) : c' other = c other := by
  rw [appendHeader_eq] at happend
  obtain ⟨l, -, rfl⟩ := Option.map_eq_some_iff.mp happend
  exact Function.update_of_ne h _ _

/-! ### The operations on the headers -/

variable [CommandHeader K]

/-- `copyHeader`. -/
def copyHeader (c src : HeaderLists (Header K)) (type : SipHeaderType) : HeaderLists (Header K) :=
  Function.update c type ((src type).map LazyHeader.duplicate)

/-- A header of another class than those of `Header`, as the accessors of the message cast it. -/
def getOther (c : HeaderLists (Header K)) (type : SipHeaderType) (local_ip : Data) :
    Option (HeaderLists (Header K) × K) :=
  (c.getParsedHeader type local_ip 0).bind fun r =>
    match r.2 with
    | .other k => some (r.1, k)
    | _ => none

/-- `incrementCSeq`. -/
def incrementCSeq (c : HeaderLists (Header K)) (local_ip : Data) : Option (HeaderLists (Header K)) :=
  (getOther c .SIP_CSEQ_HDR local_ip).map fun r =>
    r.1.setHeader .SIP_CSEQ_HDR 0 (.other (CommandHeader.incrCSeq r.2))

/-- `getContact(0).getUrl()`. -/
def getContactUrl (c : HeaderLists (Header K)) (local_ip : Data) : Option (Option Url.BaseUrl) :=
  (c.getParsedHeader .SIP_CONTACT_HDR local_ip 0).bind fun r =>
    match r.2 with
    | .contact h => some h.url
    | _ => none

/-- What the iterator of the list of Record-Route headers points to. -/
def recordRoute (n : LazyHeader (Header K)) : Option SipRecordRoute :=
  n.parse.bind fun n =>
    match n.header with
    | some (.recordRoute r) => some r
    | _ => none

/-- The loop over the list of Record-Route headers. -/
def routeLoop (push : HeaderLists (Header K) → SipRoute → Option (HeaderLists (Header K))) :
    HeaderLists (Header K) → List (LazyHeader (Header K)) → Option (HeaderLists (Header K))
  | c, [] => some c
  | c, n :: ns => (recordRoute n).bind fun rr => (push c (.ofRecordRoute rr)).bind fun c => routeLoop push c ns

/-! ### The constructors -/

/-- The headers that `SipCommand(status, local_ip)` sets before the routes. -/
def statusHeaders (src : HeaderLists (Header K)) (local_ip : Data) : Option (HeaderLists (Header K)) :=
  let c := copyHeader (copyHeader (copyHeader (copyHeader empty src .SIP_FROM_HDR) src .SIP_TO_HDR) src
    .SIP_CALLID_HDR) src .SIP_CSEQ_HDR
  (incrementCSeq c local_ip).bind fun c =>
    c.assignHeader .SIP_MAX_FORWARDS_HDR local_ip (.other CommandHeader.maxForwards)

/-- `SipCommand(status, local_ip)`. -/
def ofStatus (status : LazyStatus K) (local_ip : Data) : Option (LazyCommand K) :=
  (statusHeaders status.myHeaderList local_ip).bind fun c =>
    (if 1 ≤ status.myHeaderList.getNumHeaders .SIP_CONTACT_HDR then
      getContactUrl status.myHeaderList status.local_ip
    else some none).bind fun url =>
      -- only 18x and 2xx can have the record-route set
      (if 180 ≤ status.statusCode ∧ status.statusCode < 300 then
        routeLoop (routePushFront · local_ip) c (status.myHeaderList .SIP_RECORD_ROUTE_HDR)
      else some c).map fun c => ⟨url, local_ip, c⟩

/-- The headers that `SipCommand(src, via, cseq)` sets before the routes: From and To are reversed. -/
def requestHeaders (src : LazyCommand K) (via cseq : K) : Option (HeaderLists (Header K)) :=
  (getOther src.myHeaderList .SIP_TO_HDR src.local_ip).bind fun toHdr =>
    (empty.assignHeader .SIP_FROM_HDR src.local_ip (.other (CommandHeader.fromOfTo toHdr.2))).bind fun c =>
      (getOther src.myHeaderList .SIP_FROM_HDR src.local_ip).bind fun fromHdr =>
        (c.assignHeader .SIP_TO_HDR src.local_ip (.other (CommandHeader.toOfFrom fromHdr.2))).bind fun c =>
          ((copyHeader c src.myHeaderList .SIP_CALLID_HDR).assignHeader .SIP_CSEQ_HDR src.local_ip
            (.other cseq)).bind fun c =>
            (c.assignHeader .SIP_MAX_FORWARDS_HDR src.local_ip (.other CommandHeader.maxForwards)).bind fun c =>
              c.appendHeader .SIP_VIA_HDR (some (.other via)) src.local_ip 0

/-- `SipCommand(src, via, cseq)`. -/
def ofRequest (src : LazyCommand K) (via cseq : K) : Option (LazyCommand K) :=
  (requestHeaders src via cseq).bind fun c =>
    if src.myHeaderList.getNumHeaders .SIP_ROUTE_HDR = 0 ∧ src.myHeaderList.getNumHeaders .SIP_CONTACT_HDR = 1 then
      (getContactUrl src.myHeaderList src.local_ip).bind fun url =>
        (routeLoop (routePushBack · src.local_ip) c (src.myHeaderList .SIP_RECORD_ROUTE_HDR)).map fun c =>
          ⟨url, src.local_ip, c⟩
    else some ⟨none, src.local_ip, c⟩

/-! ### The loops -/

/-- The Record-Route headers of a message. -/
def recordRoutes (c : HeaderLists (Header K)) : Option (List SipRecordRoute) :=
  (c .SIP_RECORD_ROUTE_HDR).mapM recordRoute

/-- A loop that puts each route somewhere into the list gets through if all Record-Route headers can be read,
and leaves what putting the routes one after the other makes of the list. -/
theorem routeLoop_eq {push : HeaderLists (Header K) → SipRoute → Option (HeaderLists (Header K))}
    (put : List (LazyHeader (Header K)) → LazyHeader (Header K) → List (LazyHeader (Header K)))
    (hpush : ∀ c rr, push c (.ofRecordRoute rr) =
      some (Function.update c .SIP_ROUTE_HDR (put (c .SIP_ROUTE_HDR) (entry local_ip rr))))
    (c : HeaderLists (Header K)) (l : List (LazyHeader (Header K))) :
    routeLoop push c l = (l.mapM recordRoute).map fun rrs =>
      Function.update c .SIP_ROUTE_HDR (rrs.foldl (fun l rr => put l (entry local_ip rr)) (c .SIP_ROUTE_HDR)) := by
  induction l generalizing c with
  | nil =>
    show some c = some (Function.update c .SIP_ROUTE_HDR (c .SIP_ROUTE_HDR))
    rw [Function.update_eq_self]
  | cons n ns ih =>
    unfold routeLoop
    rw [List.mapM_cons]
    cases recordRoute n with
    | none => rfl
    | some rr =>
      rw [Option.bind_some, hpush, Option.bind_some, ih, Function.update_self]
      cases ns.mapM recordRoute with
      | none => rfl
      | some rrs =>
        show some (Function.update (Function.update c _ _) _ _) = some (Function.update c _ _)
        rw [Function.update_idem]
        rfl

theorem routeLoop_front (c : HeaderLists (Header K)) (local_ip : Data) (l : List (LazyHeader (Header K))) :
    routeLoop (routePushFront · local_ip) c l = (l.mapM recordRoute).map fun rrs =>
      Function.update c .SIP_ROUTE_HDR ((rrs.map (entry local_ip)).reverse ++ c .SIP_ROUTE_HDR) := by
  rw [routeLoop_eq (fun l n => n :: l) fun c rr => routePushFront_eq c local_ip rr]
  simp only [List.foldl_flip_cons_eq_append]

theorem routeLoop_back (c : HeaderLists (Header K)) (local_ip : Data) (l : List (LazyHeader (Header K))) :
    routeLoop (routePushBack · local_ip) c l = (l.mapM recordRoute).map fun rrs =>
      Function.update c .SIP_ROUTE_HDR (c .SIP_ROUTE_HDR ++ rrs.map (entry local_ip)) := by
  rw [routeLoop_eq (fun l n => l ++ [n]) fun c rr => routePushBack_eq c local_ip rr]
  simp only [List.foldl_append_eq_append, ← List.flatMap_def, ← List.map_eq_flatMap]

/-! ### The slot of the routes -/

theorem copyHeader_of_ne {src : HeaderLists (Header K)} {type other : SipHeaderType} (h : other ≠ type) :
    copyHeader c src type other = c other := Function.update_of_ne h _ _

theorem getParsedHeader_of_ne {type other : SipHeaderType} {index : Int} {p : Header K}
    (hget : c.getParsedHeader type local_ip index = some (c', p)) (h : other ≠ type) : c' other = c other := by
  obtain ⟨i, n, rfl⟩ := getParsedHeader_eq_some hget
  exact Function.update_of_ne h _ _

theorem assignHeader_of_ne {type other : SipHeaderType} {value : Header K}
    (hassign : c.assignHeader type local_ip value = some c') (h : other ≠ type) : c' other = c other := by
  rw [assignHeader_eq] at hassign
  obtain ⟨l, -, rfl⟩ := Option.map_eq_some_iff.mp hassign
  exact Function.update_of_ne h _ _

theorem incrementCSeq_of_ne {other : SipHeaderType} (hincr : incrementCSeq c local_ip = some c')
    (h : other ≠ .SIP_CSEQ_HDR) : c' other = c other := by
  obtain ⟨⟨c₁, k⟩, hget, rfl⟩ := Option.map_eq_some_iff.mp hincr
  obtain ⟨⟨c₂, p⟩, hparsed, hother⟩ := Option.bind_eq_some_iff.mp hget
  rw [setHeader_of_ne h]
  cases p with
  | other q =>
    obtain ⟨rfl, -⟩ := Prod.mk.inj (Option.some.inj hother)
    exact getParsedHeader_of_ne hparsed h
  | _ => exact absurd hother (by simp)

theorem statusHeaders_route {src : HeaderLists (Header K)} (h : statusHeaders src local_ip = some c) :
    c .SIP_ROUTE_HDR = [] := by
  obtain ⟨c₁, hincr, hassign⟩ := Option.bind_eq_some_iff.mp h
  rw [assignHeader_of_ne hassign (by decide), incrementCSeq_of_ne hincr (by decide), copyHeader_of_ne (by decide),
    copyHeader_of_ne (by decide), copyHeader_of_ne (by decide), copyHeader_of_ne (by decide)]
  rfl

theorem requestHeaders_route {src : LazyCommand K} {via cseq : K} (h : requestHeaders src via cseq = some c) :
    c .SIP_ROUTE_HDR = [] := by
  unfold requestHeaders at h
  obtain ⟨_, -, h⟩ := Option.bind_eq_some_iff.mp h
  obtain ⟨c₁, hfrom, h⟩ := Option.bind_eq_some_iff.mp h
  obtain ⟨_, -, h⟩ := Option.bind_eq_some_iff.mp h
  obtain ⟨c₂, hto, h⟩ := Option.bind_eq_some_iff.mp h
  obtain ⟨c₃, hcseq, h⟩ := Option.bind_eq_some_iff.mp h
  obtain ⟨c₄, hmax, hvia⟩ := Option.bind_eq_some_iff.mp h
  rw [appendHeader_of_ne hvia (by decide), assignHeader_of_ne hmax (by decide), assignHeader_of_ne hcseq (by decide),
    copyHeader_of_ne (by decide), assignHeader_of_ne hto (by decide), assignHeader_of_ne hfrom (by decide)]
  rfl

/-! ### The commands -/

variable {status : LazyStatus K} {src cmd : LazyCommand K} {via cseq : K}

theorem ofStatus_route (hlow : 180 ≤ status.statusCode) (hhigh : status.statusCode < 300)
    (h : ofStatus status local_ip = some cmd) :
    ∃ rrs, recordRoutes status.myHeaderList = some rrs ∧
      cmd.myHeaderList .SIP_ROUTE_HDR = (rrs.map (entry local_ip)).reverse := by
  obtain ⟨c, hc, h⟩ := Option.bind_eq_some_iff.mp h
  obtain ⟨url, -, h⟩ := Option.bind_eq_some_iff.mp h
  rw [if_pos ⟨hlow, hhigh⟩, routeLoop_front, Option.map_map] at h
  obtain ⟨rrs, hrrs, rfl⟩ := Option.map_eq_some_iff.mp h
  refine ⟨rrs, hrrs, ?_⟩
  show Function.update c .SIP_ROUTE_HDR ((rrs.map (entry local_ip)).reverse ++ c .SIP_ROUTE_HDR) .SIP_ROUTE_HDR = _
  rw [Function.update_self, statusHeaders_route hc, List.append_nil]

theorem ofStatus_isSome_iff (hlow : 180 ≤ status.statusCode) (hhigh : status.statusCode < 300) :
    (ofStatus status local_ip).isSome ↔ (statusHeaders status.myHeaderList local_ip).isSome ∧
      (1 ≤ status.myHeaderList.getNumHeaders .SIP_CONTACT_HDR →
        (getContactUrl status.myHeaderList status.local_ip).isSome) ∧
      (recordRoutes status.myHeaderList).isSome := by
  have hrange : 180 ≤ status.statusCode ∧ status.statusCode < 300 := ⟨hlow, hhigh⟩
  unfold ofStatus
  simp only [if_pos hrange, routeLoop_front]
  unfold recordRoutes
  cases statusHeaders status.myHeaderList local_ip with
  | none => simp
  | some c =>
    rw [Option.bind_some]
    by_cases hcontact : 1 ≤ status.myHeaderList.getNumHeaders .SIP_CONTACT_HDR
    · rw [if_pos hcontact]
      cases getContactUrl status.myHeaderList status.local_ip with
      | none => simp [hcontact]
      | some url => simp
    · rw [if_neg hcontact]
      simp [hcontact]

/-- The request has no routes of its own, and one contact. -/
def TakesRoutes (src : LazyCommand K) : Prop :=
  src.myHeaderList.getNumHeaders .SIP_ROUTE_HDR = 0 ∧ src.myHeaderList.getNumHeaders .SIP_CONTACT_HDR = 1

theorem ofRequest_route (htakes : TakesRoutes src) (h : ofRequest src via cseq = some cmd) :
    ∃ rrs, recordRoutes src.myHeaderList = some rrs ∧
      cmd.myHeaderList .SIP_ROUTE_HDR = rrs.map (entry src.local_ip) := by
  obtain ⟨c, hc, h⟩ := Option.bind_eq_some_iff.mp h
  unfold TakesRoutes at htakes
  rw [if_pos htakes] at h
  obtain ⟨url, -, h⟩ := Option.bind_eq_some_iff.mp h
  rw [routeLoop_back, Option.map_map] at h
  obtain ⟨rrs, hrrs, rfl⟩ := Option.map_eq_some_iff.mp h
  refine ⟨rrs, hrrs, ?_⟩
  show Function.update c .SIP_ROUTE_HDR (c .SIP_ROUTE_HDR ++ rrs.map (entry src.local_ip)) .SIP_ROUTE_HDR = _
  rw [Function.update_self, requestHeaders_route hc, List.nil_append]

theorem ofRequest_no_route (htakes : ¬TakesRoutes src) (h : ofRequest src via cseq = some cmd) :
    cmd.myHeaderList .SIP_ROUTE_HDR = [] := by
  obtain ⟨c, hc, h⟩ := Option.bind_eq_some_iff.mp h
  unfold TakesRoutes at htakes
  rw [if_neg htakes] at h
  obtain rfl := Option.some.inj h
  exact requestHeaders_route hc

theorem ofRequest_isSome_iff (htakes : TakesRoutes src) :
    (ofRequest src via cseq).isSome ↔ (requestHeaders src via cseq).isSome ∧
      (getContactUrl src.myHeaderList src.local_ip).isSome ∧ (recordRoutes src.myHeaderList).isSome := by
  unfold TakesRoutes at htakes
  unfold ofRequest
  cases requestHeaders src via cseq with
  | none => simp
  | some c =>
    rw [Option.bind_some, if_pos htakes]
    unfold recordRoutes
    simp only [routeLoop_back]
    cases getContactUrl src.myHeaderList src.local_ip with
    | none => simp
    | some url => simp

/-- **The route set** of a new command: the routes are the Record-Route headers of the response, reversed, or
those of the request in their order, if this has no routes and one contact; else there are none. A command is
made whenever the headers it is made from can be read. -/
theorem routeSet :
    (∀ (status : LazyStatus K) (local_ip : Data), 180 ≤ status.statusCode → status.statusCode < 300 →
      (∀ cmd, ofStatus status local_ip = some cmd → ∃ rrs, recordRoutes status.myHeaderList = some rrs ∧
        cmd.myHeaderList .SIP_ROUTE_HDR = (rrs.map (entry local_ip)).reverse) ∧
      ((ofStatus status local_ip).isSome ↔ (statusHeaders status.myHeaderList local_ip).isSome ∧
        (1 ≤ status.myHeaderList.getNumHeaders .SIP_CONTACT_HDR →
          (getContactUrl status.myHeaderList status.local_ip).isSome) ∧
        (recordRoutes status.myHeaderList).isSome)) ∧
    (∀ (src : LazyCommand K) (via cseq : K), TakesRoutes src →
      (∀ cmd, ofRequest src via cseq = some cmd → ∃ rrs, recordRoutes src.myHeaderList = some rrs ∧
        cmd.myHeaderList .SIP_ROUTE_HDR = rrs.map (entry src.local_ip)) ∧
      ((ofRequest src via cseq).isSome ↔ (requestHeaders src via cseq).isSome ∧
        (getContactUrl src.myHeaderList src.local_ip).isSome ∧ (recordRoutes src.myHeaderList).isSome)) ∧
    ∀ (src : LazyCommand K) (via cseq : K), ¬TakesRoutes src →
      ∀ cmd, ofRequest src via cseq = some cmd → cmd.myHeaderList .SIP_ROUTE_HDR = [] :=
  ⟨fun _ _ hlow hhigh => ⟨fun _ => ofStatus_route hlow hhigh, ofStatus_isSome_iff hlow hhigh⟩,
    fun _ _ _ htakes => ⟨fun _ => ofRequest_route htakes, ofRequest_isSome_iff htakes⟩,
    fun _ _ _ htakes _ => ofRequest_no_route htakes⟩

/-! ### A request with two contacts -/

/-- A header of another class as its text. -/
structure TextHeader where
  type : SipHeaderType
  text : Data
  deriving DecidableEq

instance : CommandHeader TextHeader where
  decodeHeader type value _ := some (some ⟨type, value⟩)
  encode h := headerTypeEncode h.type ++ ": ".toList ++ h.text ++ CRLF
  duplicate h := h
  compareSipHeader a b := some (a = b)
  fromOfTo h := ⟨.SIP_FROM_HDR, h.text⟩
  toOfFrom h := ⟨.SIP_TO_HDR, h.text⟩
  incrCSeq h := ⟨h.type, Data.ofNat ((convertInt h.text).toNat + 1) ++ h.text.dropWhile (· ≠ ' ')⟩
  maxForwards := ⟨.SIP_MAX_FORWARDS_HDR, "70".toList⟩

/-- A request with a Record-Route header and contacts. -/
def sampleRequest (contacts : List Data) : LazyCommand TextHeader where
  requestUrl := none
  local_ip := "h".toList
  myHeaderList
    | .SIP_FROM_HDR => [⟨⟨.SIP_FROM_HDR, "From".toList, "<sip:a@h>".toList⟩, none, "h".toList⟩]
    | .SIP_TO_HDR => [⟨⟨.SIP_TO_HDR, "To".toList, "<sip:b@h>".toList⟩, none, "h".toList⟩]
    | .SIP_RECORD_ROUTE_HDR => [⟨⟨.SIP_RECORD_ROUTE_HDR, "Record-Route".toList, "<sip:p>".toList⟩, none, "h".toList⟩]
    | .SIP_CONTACT_HDR => contacts.map fun value => ⟨⟨.SIP_CONTACT_HDR, "Contact".toList, value⟩, none, "h".toList⟩
    | _ => []

/-- With two contacts, the command has no routes. -/
theorem ofRequest_drops_routes :
    (sampleRequest ["<sip:b@h>".toList, "<sip:b@g>".toList]).myHeaderList.getNumHeaders .SIP_RECORD_ROUTE_HDR = 1 ∧
    (ofRequest (sampleRequest ["<sip:b@h>".toList, "<sip:b@g>".toList]) ⟨.SIP_VIA_HDR, "SIP/2.0/UDP h".toList⟩
      ⟨.SIP_CSEQ_HDR, "1 BYE".toList⟩).any (fun cmd => cmd.myHeaderList.getNumHeaders .SIP_ROUTE_HDR = 0) = true := by
  decide

end RouteSet

end Vocal.Sip
