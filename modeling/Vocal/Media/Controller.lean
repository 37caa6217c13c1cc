import Vocal.Lib.Machine

/-!
# Media sessions and their ports

`MediaController` hands the ports it has reserved to media sessions and takes them back. A session is an object that
callers can hold on to: `freeSession` tears it down and takes it out of the map, its destructor runs when the last holder
lets it go. Both clear the busy flag of the session's port.

The pointer to a port is its place in the list. There is no result where the source fails an assertion.
-/

namespace Vocal.Media

structure NetworkRes where
  port : Nat
  busy : Bool := false
  /-- The session that owns it, by its number. -/
  ms_owner : Option Nat := none
  deriving DecidableEq, Repr

structure MediaSession where
  mySessionId : Nat
  /-- The place of its port in `myNetworkResList`. -/
  myLocalRes : Nat
  /-- The port that its RTP session has bound, if it has one. -/
  myRtpSession : Option Nat
  /-- The callers that hold it; the map is not counted. -/
  holders : Nat
  deriving DecidableEq, Repr

structure MediaController where
  myRollingSessionId : Nat
  myNetworkResList : List NetworkRes
  myMediaSessionMap : List MediaSession
  /-- The sessions that are no longer in the map and not yet destroyed. -/
  freed : List MediaSession
  deriving DecidableEq, Repr

namespace NetworkRes

def setBusy (val : Bool) (r : NetworkRes) : NetworkRes := { r with busy := val }

def setOwner (o : Option Nat) (r : NetworkRes) : NetworkRes := { r with ms_owner := o }

end NetworkRes

namespace MediaController

/-- Changes a port. -/
def setRes (c : MediaController) (i : Nat) (f : NetworkRes → NetworkRes) : MediaController :=
  { c with myNetworkResList := c.myNetworkResList.modify i f }

/-- The probe of the operating system: a port is taken that an RTP session has bound. -/
def isPortTaken (c : MediaController) (r : NetworkRes) : Bool :=
  (c.myMediaSessionMap ++ c.freed).any fun s => s.myRtpSession = some r.port

def isBusy (c : MediaController) (r : NetworkRes) : Bool := r.busy || c.isPortTaken r

/-- `createSessionImpl` with the constructor of `MediaSession`: the first free port goes to the new session. -/
def createSessionImpl (c : MediaController) : Option MediaController :=
  let sId := c.myRollingSessionId
  match c.myNetworkResList.findIdx? fun r => !c.isBusy r with
  | none => none
  | some i =>
    if c.myMediaSessionMap.any fun s => s.mySessionId = sId then none
    else some
      { c.setRes i fun r => (r.setBusy true).setOwner (some sId) with
        myRollingSessionId := sId + 1
        myMediaSessionMap := c.myMediaSessionMap ++ [⟨sId, i, none, 0⟩] }

/-- `MediaSession::tearDown`: the RTP session is gone and the port is free. -/
def tearDown (c : MediaController) (s : MediaSession) : MediaController :=
  c.setRes s.myLocalRes (·.setBusy false)

/-- The destructor of `MediaSession`, which tears the session down once more. -/
def destroy (c : MediaController) (s : MediaSession) : MediaController :=
  ((c.tearDown s).setRes s.myLocalRes (·.setOwner none)).setRes s.myLocalRes fun r =>
    if r.busy then r.setBusy false else r

/-- The session of a number in the map. -/
def session? (c : MediaController) (sId : Nat) : Option MediaSession :=
  c.myMediaSessionMap.find? fun s => s.mySessionId = sId

def freeSession (c : MediaController) (sId : Nat) : MediaController :=
  match c.session? sId with
  | none => c
  | some s =>
    let c := { c.tearDown s with
      myMediaSessionMap := c.myMediaSessionMap.filter fun t => t.mySessionId ≠ sId }
    if s.holders = 0 then c.destroy s else { c with freed := { s with myRtpSession := none } :: c.freed }

/-- Changes the session of a number in the map. -/
def modifySession (c : MediaController) (sId : Nat) (f : MediaSession → MediaSession) : MediaController :=
  { c with myMediaSessionMap := c.myMediaSessionMap.map fun s => if s.mySessionId = sId then f s else s }

/-- `getSession`; the caller holds what it gets. -/
def getSession (c : MediaController) (sId : Nat) : Option MediaController :=
  if (c.session? sId).isSome then some (c.modifySession sId fun s => { s with holders := s.holders + 1 }) else none

/-- `addToSession`, which leaves a session alone that has an RTP session. `rtp` is the port it binds, if the
descriptions give it one. -/
def addToSession (c : MediaController) (sId : Nat) (rtp : Option Nat) : Option MediaController :=
  if (c.session? sId).isSome then
    some (c.modifySession sId fun s => { s with myRtpSession := s.myRtpSession.or rtp })
  else none

/-- The freed session of a number. -/
def freed? (c : MediaController) (sId : Nat) : Option MediaSession := c.freed.find? fun s => s.mySessionId = sId

/-- A caller lets a session go. The last one of a freed session destroys it. -/
def release (c : MediaController) (sId : Nat) : MediaController :=
  match c.freed? sId with
  | none => c.modifySession sId fun s => { s with holders := s.holders - 1 }
  | some s =>
    if s.holders ≤ 1 then { c with freed := c.freed.filter fun t => t.mySessionId ≠ sId }.destroy s
    else
      { c with freed := c.freed.map fun t => if t.mySessionId = sId then { t with holders := t.holders - 1 } else t }

/-! ### Runs -/

inductive Op
  | create
  | free (sId : Nat)
  | get (sId : Nat)
  | add (sId : Nat) (rtp : Option Nat)
  | release (sId : Nat)
  deriving DecidableEq, Repr

def step (c : MediaController) : Op → Option MediaController
  | .create => c.createSessionImpl
  | .free sId => some (c.freeSession sId)
  | .get sId => c.getSession sId
  | .add sId rtp => c.addToSession sId rtp
  | .release sId => some (c.release sId)

/-- A controller that found these ports free when it was made. -/
def initial (ports : List Nat) : MediaController where
  myRollingSessionId := 1
  myNetworkResList := ports.map fun port => { port }
  myMediaSessionMap := []
  freed := []

/-- The controller as a machine; after a failed assertion nothing happens any more. -/
def machine (ports : List Nat) : Machine (Option MediaController) Op Unit where
  init := some (initial ports)
  step c op := (c.bind (·.step op), ())

end MediaController

end Vocal.Media
