import Vocal.Sip.TcpConnection.ConnInfo

/-!
# Coherence of the connection table

A connection that the table finds by transaction or by destination should be in its main map, and
each destination should have one live connection. `connection_table_coherent` shows both for every
run in which descriptors and destinations are not taken twice and no `read` fails during a tick.

The code does not keep to that by itself: a persistent connection is closed as soon as it is made,
but stays in the maps, and the next one gets its descriptor (`persistent_connections_break_table`).
-/

namespace Vocal.Sip.NTcpConnInfo

/-! ### The property -/

def InMap (s : NTcpConnInfo) (r : Ref) : Prop := ∃ fd, s.myMap.lookup fd = some r

/-- The connection is found by a transaction or by a destination. -/
def Recorded (s : NTcpConnInfo) (r : Ref) : Prop :=
  (∃ id, s.idMap id = some r) ∨ ∃ key, s.myDestinationMap key = some r

/-- A live connection of the table that was made for the key, or is found by it. -/
def Kept (s : NTcpConnInfo) (key : Data) (r : Ref) : Prop :=
  s.InMap r ∧ s.isLive r ∧ ((s.conns[r]?).map NTcpStuff.peer = some key ∨ s.myDestinationMap key = some r)

structure Coherent (s : NTcpConnInfo) : Prop where
  recorded : ∀ r, s.Recorded r → s.InMap r
  unique : ∀ key r r', s.Kept key r → s.Kept key r' → r = r'

/-- The table is defined and coherent. -/
def Defined (s : Option NTcpConnInfo) : Prop := ∃ t, s = some t ∧ t.Coherent

/-- A call for a destination with a live connection returns that connection. -/
def ReturnsLive (decode : Data → Option Decoded) (s : Option NTcpConnInfo) (op : Op) : Prop :=
  ∀ t ipName port connId, s = some t → op = .createOrGetPersistentConnection ipName port connId →
    ∀ conn, t.myDestinationMap (destinationKey ipName port) = some conn → t.isLive conn →
      (t.step decode op).2 = some conn

/-! ### The condition -/

/-- No live connection is found by the key. -/
def Free (s : NTcpConnInfo) (key : Data) : Prop := ∀ r, s.myDestinationMap key = some r → ¬ s.isLive r

def AcceptAllowed (s : NTcpConnInfo) (a : Accepted) : Prop := a.clientId ∉ s.myMap ∧ s.Free a.peerIp

/-- No message of the list has a Contact to which a live connection leads other than `connInfo`. -/
def ContactsFree (s : NTcpConnInfo) (connInfo : Ref) (ms : List Decoded) : Prop :=
  ∀ m ∈ ms, ∀ key, contactKey m = some key →
    ∀ r, s.myDestinationMap key = some r → s.isLive r → r = connInfo

/-- The bytes received on a connection can be cut into messages, and their Contacts are free. -/
def Processable (decode : Data → Option Decoded) (s : NTcpConnInfo) (connInfo : Ref) : Prop :=
  ∃ rest texts, Sip.processMsgsIfReady (s.getRcvBuf connInfo) = some (rest, texts) ∧
    s.ContactsFree connInfo (texts.filterMap decode)

/-- The condition on a round of `tick` with a descriptor that is ready: a new connection can be taken
up, a `read` from another one does not fail, and what has been received can be processed. -/
structure RoundAllowed (decode : Data → Option Decoded) (sockets : Sockets) (s : NTcpConnInfo)
    (fd : Int) : Prop where
  accepts : fd = s.getConnId s.serverConn → s.AcceptAllowed sockets.accepted
  reads : fd ≠ s.getConnId s.serverConn → ∀ r, s.myMap.lookup fd = some r →
    s.read r (sockets.reads fd) ≠ none
  processes : ∀ s' rv r, s.tcpReadOrAccept fd sockets = some (s', rv) → 0 < rv →
    s'.myMap.lookup fd = some r → s'.Processable decode r

/-- The rounds of a loop, with the table before each. -/
inductive Visits (round : NTcpConnInfo → Int → Option NTcpConnInfo) :
    Option Int → NTcpConnInfo → NTcpConnInfo → Int → Prop
  | here {last : Option Int} {s : NTcpConnInfo} {fd : Int} (hnext : s.nextFd last = some fd) :
      Visits round last s s fd
  | later {last : Option Int} {s s' s'' : NTcpConnInfo} {fd fd' : Int}
      (hnext : s.nextFd last = some fd) (hround : round s fd = some s')
      (hvisits : Visits round (some fd) s' s'' fd') : Visits round last s s'' fd'

/-- The condition on an operation. -/
def Allowed (decode : Data → Option Decoded) (s : NTcpConnInfo) : Op → Prop
  | .accept a => s.AcceptAllowed a
  | .createOrGetPersistentConnection ipName port connId =>
    connId ∉ s.myMap ∧ s.myDestinationMap (destinationKey ipName port) = none
  | .tick sockets => ∀ s' fd, Visits (tickRound decode sockets) none s s' fd →
      sockets.input_fds fd = true → s'.RoundAllowed decode sockets fd
  | _ => True

/-! ### The invariant -/

/-- Every live connection of the main map is found by the key it was made for. -/
structure Inv (s : NTcpConnInfo) : Prop where
  recorded : ∀ r, s.Recorded r → s.InMap r
  live : ∀ r t, s.InMap r → s.conns[r]? = some t → t.isLive → s.myDestinationMap t.peer = some r
  valid : ∀ r, s.InMap r → r < s.conns.length

theorem isLive_iff {s : NTcpConnInfo} {r : Ref} {t : NTcpStuff} (ht : s.conns[r]? = some t) :
    s.isLive r ↔ t.isLive := by
  rw [isLive, getConnId, ht]
  rfl

theorem isLive_getElem? {s : NTcpConnInfo} {r : Ref} (h : s.isLive r) :
    ∃ t, s.conns[r]? = some t ∧ t.isLive := by
  rw [isLive, getConnId] at h
  cases ht : s.conns[r]? with
  | none =>
    rw [ht, Option.elim_none] at h
    omega
  | some t =>
    rw [ht] at h
    exact ⟨t, rfl, h⟩

theorem Inv.coherent {s : NTcpConnInfo} (h : Inv s) : s.Coherent := by
  have hfound : ∀ key r, s.Kept key r → s.myDestinationMap key = some r := by
    rintro key r ⟨hmap, hlive, hpeer | hdest⟩
    · obtain ⟨t, ht, hlive'⟩ := isLive_getElem? hlive
      rw [ht, Option.map_some, Option.some.injEq] at hpeer
      rw [← hpeer]
      exact h.live r t hmap ht hlive'
    · exact hdest
  refine ⟨h.recorded, fun key r r' hr hr' => ?_⟩
  exact Option.some.inj ((hfound key r hr).symm.trans (hfound key r' hr'))

/-! ### What the operations keep -/

theorem Inv.updateConn {s : NTcpConnInfo} (h : Inv s) (r : Ref) {g : NTcpStuff → NTcpStuff}
    (hg : ∀ t, (g t).peer = t.peer ∧ ((g t).isLive → t.isLive)) : Inv (s.updateConn r g) := by
  refine ⟨h.recorded, fun i t hmap ht hlive => ?_, fun i hmap => ?_⟩
  · rw [NTcpConnInfo.updateConn, List.getElem?_modify] at ht
    obtain ⟨t₀, ht₀, rfl⟩ := Option.map_eq_some_iff.mp ht
    split at hlive
    · rename_i hi
      rw [if_pos hi, (hg t₀).1]
      exact h.live i t₀ hmap ht₀ ((hg t₀).2 hlive)
    · rename_i hi
      rw [if_neg hi]
      exact h.live i t₀ hmap ht₀ hlive
  · rw [NTcpConnInfo.updateConn, List.length_modify]
    exact h.valid i hmap

theorem Inv.close {s : NTcpConnInfo} (h : Inv s) (r : Ref) : Inv (s.close r) := by
  refine h.updateConn r fun t => ⟨rfl, fun hlive => ?_⟩
  have : (0 : Int) ≤ -1 := hlive
  omega

theorem not_isLive_close {s : NTcpConnInfo} {r : Ref} {t : NTcpStuff}
    (ht : (s.close r).conns[r]? = some t) : ¬ t.isLive := by
  rw [NTcpConnInfo.close, NTcpConnInfo.updateConn, List.getElem?_modify] at ht
  obtain ⟨t₀, _, rfl⟩ := Option.map_eq_some_iff.mp ht
  rw [if_pos rfl]
  intro hlive
  have : (0 : Int) ≤ -1 := hlive
  omega

theorem Inv.setRcvBuf {s : NTcpConnInfo} (h : Inv s) (r : Ref) (rcvBuf : Data) :
    Inv (s.setRcvBuf r rcvBuf) :=
  h.updateConn r fun _ => ⟨rfl, id⟩

theorem Inv.tryWrite {s : NTcpConnInfo} (h : Inv s) (r : Ref) (written : Int) :
    Inv (s.tryWrite r written) := by
  unfold NTcpConnInfo.tryWrite
  split
  · exact h.close r
  · exact h

theorem Inv.updateIdMap {s : NTcpConnInfo} (h : Inv s) (key : Bool × Data × Data × Data)
    {entry : Option Ref} (hentry : ∀ r, entry = some r → s.InMap r) :
    Inv { s with idMap := Function.update s.idMap key entry } := by
  refine ⟨?_, h.live, h.valid⟩
  rintro r (⟨id, hid⟩ | hdest)
  · simp only [Function.update_apply] at hid
    split at hid
    · exact hentry r hid
    · exact h.recorded r (Or.inl ⟨id, hid⟩)
  · exact h.recorded r (Or.inr hdest)

theorem Inv.setStatusMsgConn {s : NTcpConnInfo} (h : Inv s) (msg : SipMsg) (fd : Int) :
    Inv (s.setStatusMsgConn msg fd) := by
  unfold NTcpConnInfo.setStatusMsgConn
  split
  · rename_i t hcurrent
    refine h.updateIdMap _ fun r hr => ?_
    obtain rfl := Option.some.inj hr
    exact ⟨fd, hcurrent⟩
  · exact h

theorem Inv.delIdMapEntry {s : NTcpConnInfo} (h : Inv s) (id : SipTransactionId) :
    Inv (s.delIdMapEntry id) :=
  h.updateIdMap _ fun _ hr => by cases hr

theorem Inv.delConn {s : NTcpConnInfo} (h : Inv s) (fd : Int) : Inv (s.delConn fd) := by
  unfold NTcpConnInfo.delConn
  cases hdel : s.myMap.lookup fd with
  | none => exact h
  | some del =>
    -- an entry other than that of the deleted connection stays in the main map
    have hstays : ∀ r, r ≠ del → s.InMap r → ∃ fd', (s.myMap.erase fd).lookup fd' = some r := by
      rintro r hne ⟨fd', hfd'⟩
      refine ⟨fd', ?_⟩
      rw [Finmap.lookup_erase_ne, hfd']
      rintro rfl
      exact hne (Option.some.inj (hfd'.symm.trans hdel))
    have hwas : ∀ r, (∃ fd', (s.myMap.erase fd).lookup fd' = some r) → s.InMap r := by
      rintro r ⟨fd', hfd'⟩
      by_cases heq : fd' = fd
      · rw [heq, Finmap.lookup_erase] at hfd'
        cases hfd'
      · rw [Finmap.lookup_erase_ne heq] at hfd'
        exact ⟨fd', hfd'⟩
    have hcleared : ∀ {entry : Option Ref} {r : Ref},
        (if entry = some del then none else entry) = some r ↔ entry = some r ∧ r ≠ del := by
      intro entry r
      split
      · rename_i heq
        simp [heq, eq_comm]
      · rename_i hne
        refine ⟨fun heq => ⟨heq, ?_⟩, fun heq => heq.1⟩
        rintro rfl
        exact hne heq
    have hclosed := h.close del
    refine ⟨?_, fun r t hmap ht hlive => ?_, fun r hmap => hclosed.valid r (hwas r hmap)⟩
    · rintro r (⟨id, hid⟩ | ⟨key, hkey⟩)
      · obtain ⟨hid, hne⟩ := hcleared.mp hid
        exact hstays r hne (h.recorded r (Or.inl ⟨id, hid⟩))
      · obtain ⟨hkey, hne⟩ := hcleared.mp hkey
        exact hstays r hne (h.recorded r (Or.inr ⟨key, hkey⟩))
    · refine hcleared.mpr ⟨hclosed.live r t (hwas r hmap) ht hlive, ?_⟩
      rintro rfl
      exact not_isLive_close ht hlive

theorem Inv.notifyDestination {s : NTcpConnInfo} (h : Inv s) {key : Data} {r : Ref} (hmap : s.InMap r)
    (hother : ∀ r', s.myDestinationMap key = some r' → s.isLive r' → r' = r) :
    Inv (s.notifyDestination key r) := by
  refine ⟨?_, fun i t hi ht hlive => ?_, h.valid⟩
  · rintro i (hid | ⟨key', hkey'⟩)
    · exact h.recorded i (Or.inl hid)
    · simp only [NTcpConnInfo.notifyDestination, Function.update_apply] at hkey'
      split at hkey'
      · obtain rfl := Option.some.inj hkey'
        exact hmap
      · exact h.recorded i (Or.inr ⟨key', hkey'⟩)
  · have hfound := h.live i t hi ht hlive
    simp only [NTcpConnInfo.notifyDestination, Function.update_apply]
    split
    · rename_i heq
      rw [heq] at hfound
      rw [hother i hfound ((isLive_iff ht).mpr hlive)]
    · exact hfound

theorem Inv.setConnNPeerIp {s : NTcpConnInfo} (h : Inv s) {fd : Int} {peer : Data}
    (hfd : fd ∉ s.myMap) (hfree : s.Free peer) : Inv (s.setConnNPeerIp fd peer) := by
  have hnew : (s.setConnNPeerIp fd peer).InMap s.conns.length := ⟨fd, Finmap.lookup_insert _⟩
  have hstays : ∀ r, s.InMap r → (s.setConnNPeerIp fd peer).InMap r := by
    rintro r ⟨fd', hfd'⟩
    refine ⟨fd', (Finmap.lookup_insert_of_ne _ ?_).trans hfd'⟩
    rintro rfl
    exact hfd (Finmap.mem_iff.mpr ⟨r, hfd'⟩)
  have hwas : ∀ r, (s.setConnNPeerIp fd peer).InMap r → r = s.conns.length ∨ s.InMap r := by
    rintro r ⟨fd', hfd'⟩
    simp only [NTcpConnInfo.setConnNPeerIp] at hfd'
    by_cases heq : fd' = fd
    · rw [heq, Finmap.lookup_insert] at hfd'
      exact Or.inl (Option.some.inj hfd').symm
    · rw [Finmap.lookup_insert_of_ne _ heq] at hfd'
      exact Or.inr ⟨fd', hfd'⟩
  refine ⟨?_, fun r t hmap ht hlive => ?_, fun r hmap => ?_⟩
  · rintro r (hid | ⟨key, hkey⟩)
    · exact hstays r (h.recorded r (Or.inl hid))
    · simp only [NTcpConnInfo.setConnNPeerIp, Function.update_apply] at hkey
      split at hkey
      · obtain rfl := Option.some.inj hkey
        exact hnew
      · exact hstays r (h.recorded r (Or.inr ⟨key, hkey⟩))
  · simp only [NTcpConnInfo.setConnNPeerIp, Function.update_apply] at ht ⊢
    rcases hwas r hmap with rfl | hold
    · rw [Store.getElem?_alloc] at ht
      obtain rfl := Option.some.inj ht
      rw [if_pos rfl]
    · rw [List.getElem?_append_left (h.valid r hold)] at ht
      have hfound := h.live r t hold ht hlive
      rw [if_neg, hfound]
      rintro heq
      rw [heq] at hfound
      exact hfree r hfound ((isLive_iff ht).mpr hlive)
  · simp only [NTcpConnInfo.setConnNPeerIp, List.length_append, List.length_singleton]
    rcases hwas r hmap with rfl | hold
    · exact Nat.lt_succ_self _
    · exact Nat.lt_succ_of_lt (h.valid r hold)

/-! ### Messages -/

theorem setStatusMsgConn_frame (s : NTcpConnInfo) (msg : SipMsg) (fd : Int) :
    (s.setStatusMsgConn msg fd).conns = s.conns ∧ (s.setStatusMsgConn msg fd).myMap = s.myMap ∧
      (s.setStatusMsgConn msg fd).myDestinationMap = s.myDestinationMap := by
  unfold setStatusMsgConn
  split <;> exact ⟨rfl, rfl, rfl⟩

theorem recordMsg_frame (connInfo : Ref) (fd : Int) (s : NTcpConnInfo) (m : Decoded) :
    (recordMsg connInfo fd s m).conns = s.conns ∧ (recordMsg connInfo fd s m).myMap = s.myMap ∧
      ∀ key r, (recordMsg connInfo fd s m).myDestinationMap key = some r →
        s.myDestinationMap key = some r ∨ r = connInfo := by
  obtain ⟨hconns, hmyMap, hdest⟩ := setStatusMsgConn_frame s m.msg fd
  unfold recordMsg
  split
  · dsimp only
    split
    · refine ⟨hconns, hmyMap, fun key r hkey => ?_⟩
      simp only [notifyDestination, Function.update_apply, hdest] at hkey
      split at hkey
      · exact Or.inr (Option.some.inj hkey).symm
      · exact Or.inl hkey
    · exact ⟨hconns, hmyMap, fun key r hkey => Or.inl (hdest ▸ hkey)⟩
  · exact ⟨rfl, rfl, fun key r hkey => Or.inl hkey⟩

theorem isLive_congr {s s' : NTcpConnInfo} (h : s'.conns = s.conns) (r : Ref) :
    s'.isLive r ↔ s.isLive r := by
  rw [isLive, isLive, getConnId, getConnId, h]

theorem isLive_setRcvBuf (s : NTcpConnInfo) (r : Ref) (rcvBuf : Data) (i : Ref) :
    (s.setRcvBuf r rcvBuf).isLive i ↔ s.isLive i := by
  rw [isLive, isLive, getConnId, getConnId, setRcvBuf, updateConn, List.getElem?_modify]
  cases s.conns[i]? with
  | none => rfl
  | some t =>
    rw [Option.map_eq_map, Option.map_some, Option.elim_some, Option.elim_some]
    split <;> rfl

theorem Inv.recordMsg {connInfo : Ref} {s : NTcpConnInfo} {m : Decoded} {ms : List Decoded}
    (h : Inv s) (hmap : s.InMap connInfo) (hfree : s.ContactsFree connInfo (m :: ms)) (fd : Int) :
    Inv (recordMsg connInfo fd s m) := by
  have hstatus := h.setStatusMsgConn m.msg fd
  obtain ⟨hconns, hmyMap, hdest⟩ := setStatusMsgConn_frame s m.msg fd
  unfold NTcpConnInfo.recordMsg
  split
  · dsimp only
    split
    · rename_i key hkey
      refine hstatus.notifyDestination ?_ fun r hr hlive => ?_
      · rw [InMap, hmyMap]
        exact hmap
      · rw [hdest] at hr
        exact hfree m (List.mem_cons_self ..) key hkey r hr ((isLive_congr hconns r).mp hlive)
    · exact hstatus
  · exact h

theorem Inv.foldl_recordMsg {connInfo : Ref} (fd : Int) (ms : List Decoded) :
    ∀ {s : NTcpConnInfo}, Inv s → s.InMap connInfo → s.ContactsFree connInfo ms →
      Inv (ms.foldl (NTcpConnInfo.recordMsg connInfo fd) s) ∧
        (ms.foldl (NTcpConnInfo.recordMsg connInfo fd) s).myMap = s.myMap := by
  induction ms with
  | nil => intro s h _ _; exact ⟨h, rfl⟩
  | cons m ms ih =>
    intro s h hmap hfree
    obtain ⟨hconns, hmyMap, hdest⟩ := recordMsg_frame connInfo fd s m
    have hmap' : (NTcpConnInfo.recordMsg connInfo fd s m).InMap connInfo := by
      rw [InMap, hmyMap]
      exact hmap
    have hfree' : (NTcpConnInfo.recordMsg connInfo fd s m).ContactsFree connInfo ms := by
      intro m' hm' key hkey r hr hlive
      rcases hdest key r hr with hold | hconn
      · exact hfree m' (List.mem_cons_of_mem _ hm') key hkey r hold ((isLive_congr hconns r).mp hlive)
      · exact hconn
    obtain ⟨hinv, hrest⟩ := ih (h.recordMsg hmap hfree fd) hmap' hfree'
    exact ⟨hinv, hrest.trans hmyMap⟩

theorem Inv.processMsgsIfReady {decode : Data → Option Decoded} {s : NTcpConnInfo} (h : Inv s)
    {connInfo : Ref} (hmap : s.InMap connInfo) (hprocess : s.Processable decode connInfo) :
    ∃ s', s.processMsgsIfReady decode connInfo = some s' ∧ Inv s' ∧ s'.myMap = s.myMap := by
  obtain ⟨rest, texts, hcut, hcontacts⟩ := hprocess
  have hfree : (s.setRcvBuf connInfo rest).ContactsFree connInfo (texts.filterMap decode) := by
    intro m hm key hkey r hr hlive
    exact hcontacts m hm key hkey r hr ((isLive_setRcvBuf s connInfo rest r).mp hlive)
  obtain ⟨hinv, hmyMap⟩ := foldl_recordMsg (s.getConnId connInfo) (texts.filterMap decode)
    (h.setRcvBuf connInfo rest) hmap hfree
  refine ⟨_, ?_, hinv, hmyMap⟩
  rw [NTcpConnInfo.processMsgsIfReady, hcut, Option.map_some]

/-! ### The loops -/

theorem nextFd_some {s : NTcpConnInfo} {last : Option Int} {fd : Int} (h : s.nextFd last = some fd) :
    fd ∈ s.myMap.keys ∧ last.all (· < fd) = true := by
  have hmem := Finset.mem_of_min h
  exact Finset.mem_filter.mp hmem

/-- A loop whose rounds are defined and keep `P` ends and keeps `P`, if `P` bounds the descriptors. -/
theorem loop_result (round : NTcpConnInfo → Int → Option NTcpConnInfo) {P : NTcpConnInfo → Prop}
    {K : Finset Int} (hkeys : ∀ s, P s → s.myMap.keys ⊆ K) :
    ∀ (fuel : Nat) (last : Option Int) (s : NTcpConnInfo), P s →
      (∀ s' fd, Visits round last s s' fd → P s' → fd ∈ s'.myMap →
        ∃ s'', round s' fd = some s'' ∧ P s'') →
      (K.filter fun fd => last.all (· < fd)).card < fuel →
      ∃ s', loop round fuel last s = some s' ∧ P s' := by
  intro fuel
  induction fuel with
  | zero => intro last s _ _ hfuel; omega
  | succ fuel ih =>
    intro last s hs hrounds hfuel
    rw [loop]
    cases hnext : s.nextFd last with
    | none => exact ⟨s, rfl, hs⟩
    | some fd =>
      obtain ⟨hmem, hlast⟩ := nextFd_some hnext
      obtain ⟨s', hround, hs'⟩ := hrounds s fd (.here hnext) hs (Finmap.mem_keys.mp hmem)
      have hless : (K.filter fun fd' => (some fd).all (· < fd')).card <
          (K.filter fun fd' => last.all (· < fd')).card := by
        refine Finset.card_lt_card (Finset.ssubset_iff_of_subset ?_ |>.mpr ⟨fd, ?_, by simp⟩)
        · intro fd' hfd'
          obtain ⟨hK, hlt⟩ := Finset.mem_filter.mp hfd'
          refine Finset.mem_filter.mpr ⟨hK, ?_⟩
          cases last with
          | none => rfl
          | some last =>
            simp only [Option.all_some, decide_eq_true_eq] at hlast hlt ⊢
            omega
        · exact Finset.mem_filter.mpr ⟨hkeys s hs hmem, hlast⟩
      obtain ⟨s'', hloop, hs''⟩ := ih (some fd) s' hs'
        (fun t fd' hvisits => hrounds t fd' (.later hnext hround hvisits)) (by omega)
      refine ⟨s'', ?_, hs''⟩
      show (round s fd).bind _ = _
      rw [hround, Option.bind_some, hloop]

/-! ### New connections and ticks -/

theorem Inv.accept {s : NTcpConnInfo} (h : Inv s) {a : Accepted} (ha : s.AcceptAllowed a) :
    Inv (s.accept a).1 ∧ ∀ fd, fd ≠ a.clientId → (s.accept a).1.myMap.lookup fd = s.myMap.lookup fd := by
  have hnew := h.setConnNPeerIp ha.1 ha.2
  unfold NTcpConnInfo.accept
  dsimp only
  split
  · refine ⟨hnew.delConn a.clientId, fun fd hfd => ?_⟩
    simp only [NTcpConnInfo.delConn, NTcpConnInfo.setConnNPeerIp, Finmap.lookup_insert]
    exact (Finmap.lookup_erase_ne hfd).trans (Finmap.lookup_insert_of_ne _ hfd)
  · exact ⟨hnew.setRcvBuf _ _, fun fd hfd => Finmap.lookup_insert_of_ne _ hfd⟩

theorem Inv.createOrGetPersistentConnection {s : NTcpConnInfo} (h : Inv s) {ipName : Data}
    {port connId : Int} (hfd : connId ∉ s.myMap)
    (hkey : s.myDestinationMap (destinationKey ipName port) = none) :
    ∃ s' r, s.createOrGetPersistentConnection ipName port connId = some (s', r) ∧ Inv s' := by
  have hnew : Inv (s.setConnNPeerIp connId (destinationKey ipName port)) :=
    h.setConnNPeerIp hfd fun r hr => by rw [hkey] at hr; cases hr
  refine ⟨_, _, if_pos (fun conn hconn => by rw [hkey] at hconn; cases hconn), ?_⟩
  split
  · exact hnew.close _
  · exact hnew

theorem Inv.process_read {decode : Data → Option Decoded} {s : NTcpConnInfo} (h : Inv s) {fd rv : Int}
    {r : Ref} (hfd : s.myMap.lookup fd = some r) (hprocess : 0 < rv → s.Processable decode r) :
    ∃ s', (if 0 < rv then (s.getCurrent fd).bind (s.processMsgsIfReady decode) else some s) = some s' ∧
      Inv s' ∧ s'.myMap = s.myMap := by
  split
  · rename_i hpos
    rw [getCurrent, hfd, Option.bind_some]
    exact h.processMsgsIfReady ⟨fd, hfd⟩ (hprocess hpos)
  · exact ⟨s, rfl, h, rfl⟩

/-- The step lemma of `tick`: a round is defined and keeps the invariant. -/
theorem Inv.tickRound {decode : Data → Option Decoded} {sockets : Sockets} {s : NTcpConnInfo}
    (h : Inv s) {fd : Int} (hmem : fd ∈ s.myMap)
    (hround : sockets.input_fds fd = true → s.RoundAllowed decode sockets fd) :
    ∃ s', tickRound decode sockets s fd = some s' ∧ Inv s' ∧
      ∀ fd', fd' ≠ sockets.accepted.clientId → s'.myMap.lookup fd' = s.myMap.lookup fd' := by
  obtain ⟨r, hr⟩ := Finmap.mem_iff.mp hmem
  -- after the `read`, the entry of the round is still there
  have hread : ∃ s₁, (if sockets.input_fds fd then
      (s.tcpReadOrAccept fd sockets).bind fun p =>
        if 0 < p.2 then (p.1.getCurrent fd).bind (p.1.processMsgsIfReady decode) else some p.1
      else some s) = some s₁ ∧ Inv s₁ ∧ s₁.myMap.lookup fd = some r ∧
        ∀ fd', fd' ≠ sockets.accepted.clientId → s₁.myMap.lookup fd' = s.myMap.lookup fd' := by
    split
    · rename_i hready
      obtain ⟨haccepts, hreads, hprocesses⟩ := hround hready
      by_cases hserver : fd = s.getConnId s.serverConn
      · have hallowed := haccepts hserver
        obtain ⟨hinv, hsame⟩ := h.accept hallowed
        have hfd : (s.accept sockets.accepted).1.myMap.lookup fd = some r := by
          rw [hsame, hr]
          rintro rfl
          exact hallowed.1 hmem
        have htcp : s.tcpReadOrAccept fd sockets = some (s.accept sockets.accepted) := if_pos hserver
        obtain ⟨s₁, hs₁, hinv₁, hmyMap⟩ := hinv.process_read hfd
          fun hpos => hprocesses _ _ r htcp hpos hfd
        refine ⟨s₁, ?_, hinv₁, by rw [hmyMap, hfd], fun fd' hfd' => by rw [hmyMap, hsame fd' hfd']⟩
        rw [htcp, Option.bind_some]
        exact hs₁
      · cases hbytes : s.read r (sockets.reads fd) with
        | none => exact absurd hbytes (hreads hserver r hr)
        | some bytes =>
          have htcp : s.tcpReadOrAccept fd sockets =
              some (s.setRcvBuf r (s.getRcvBuf r ++ bytes), (bytes.length : Int)) := by
            rw [tcpReadOrAccept, if_neg hserver, getCurrent, hr, Option.map_some, hbytes]
          obtain ⟨s₁, hs₁, hinv₁, hmyMap⟩ := (h.setRcvBuf r (s.getRcvBuf r ++ bytes)).process_read hr
            fun hpos => hprocesses _ _ r htcp hpos hr
          refine ⟨s₁, ?_, hinv₁, by rw [hmyMap]; exact hr, fun fd' _ => by rw [hmyMap]; rfl⟩
          rw [htcp, Option.bind_some]
          exact hs₁
    · exact ⟨s, rfl, h, hr, fun _ _ => rfl⟩
  obtain ⟨s₁, hs₁, hinv₁, hfd₁, hsame₁⟩ := hread
  refine ⟨s₁.tryWrite r (sockets.written fd), ?_, hinv₁.tryWrite _ _, ?_⟩
  · show Option.bind _ _ = _
    rw [show (if sockets.input_fds fd = true then _ else some s) = some s₁ from hs₁, Option.bind_some,
      getCurrent, hfd₁, Option.map_some]
  · intro fd' hfd'
    rw [← hsame₁ fd' hfd']
    unfold NTcpConnInfo.tryWrite
    split <;> rfl

theorem Inv.tick {decode : Data → Option Decoded} {sockets : Sockets} {s : NTcpConnInfo} (h : Inv s)
    (hallowed : s.Allowed decode (.tick sockets)) : ∃ s', s.tick decode sockets = some s' ∧ Inv s' := by
  obtain ⟨s', hs', hinv, _⟩ := loop_result (NTcpConnInfo.tickRound decode sockets)
    (P := fun t => Inv t ∧ t.myMap.keys ⊆ insert sockets.accepted.clientId s.myMap.keys)
    (fun t ht => ht.2) (s.myMap.keys.card + 2) none s ⟨h, Finset.subset_insert _ _⟩ (by
      rintro t fd hvisits ⟨hinv, hkeys⟩ hmem
      obtain ⟨t', hround, hinv', hsame⟩ := hinv.tickRound hmem (hallowed t fd hvisits)
      refine ⟨t', hround, hinv', fun fd' hfd' => ?_⟩
      by_cases hclient : fd' = sockets.accepted.clientId
      · rw [hclient]
        exact Finset.mem_insert_self _ _
      · rw [Finmap.mem_keys, Finmap.mem_iff, hsame fd' hclient] at hfd'
        exact hkeys (Finmap.mem_keys.mpr (Finmap.mem_iff.mpr hfd'))) (by
      have := Finset.card_insert_le sockets.accepted.clientId s.myMap.keys
      have := Finset.card_filter_le (insert sockets.accepted.clientId s.myMap.keys)
        fun fd => (none : Option Int).all (· < fd) = true
      omega)
  exact ⟨s', hs', hinv⟩

theorem Inv.writeTick {sockets : Sockets} {s : NTcpConnInfo} (h : Inv s) :
    ∃ s', s.writeTick sockets = some s' ∧ Inv s' := by
  obtain ⟨s', hs', hinv, _⟩ := loop_result
    (fun s fd => (s.getCurrent fd).map fun r => s.tryWrite r (sockets.written fd))
    (P := fun t => Inv t ∧ t.myMap = s.myMap) (K := s.myMap.keys) (fun t ht => by rw [ht.2])
    (s.myMap.keys.card + 2) none s ⟨h, rfl⟩ (by
      rintro t fd _ ⟨hinv, hmyMap⟩ hmem
      obtain ⟨r, hr⟩ := Finmap.mem_iff.mp hmem
      refine ⟨_, by rw [getCurrent, hr, Option.map_some], hinv.tryWrite _ _, ?_⟩
      rw [← hmyMap, NTcpConnInfo.tryWrite]
      split <;> rfl) (by
      have := Finset.card_filter_le s.myMap.keys fun fd => (none : Option Int).all (· < fd) = true
      omega)
  exact ⟨s', hs', hinv⟩

/-! ### Runs -/

theorem inv_listening (fd : Int) (local_ip : Data) : Inv (listening fd local_ip) := by
  refine Inv.setConnNPeerIp ⟨?_, ?_, ?_⟩ (Finmap.notMem_empty) fun _ hr => by cases hr
  · rintro r (⟨_, hid⟩ | ⟨_, hkey⟩)
    · cases hid
    · cases hkey
  · rintro r t ⟨fd', hfd'⟩
    cases hfd'
  · rintro r ⟨fd', hfd'⟩
    cases hfd'

theorem Inv.step {decode : Data → Option Decoded} {s : NTcpConnInfo} (h : Inv s) {op : Op}
    (hop : s.Allowed decode op) : ∃ s', (s.step decode op).1 = some s' ∧ Inv s' := by
  cases op with
  | accept a => exact ⟨_, rfl, (h.accept hop).1⟩
  | createOrGetPersistentConnection ipName port connId =>
    obtain ⟨s', r, hcreate, hinv⟩ := h.createOrGetPersistentConnection hop.1 hop.2
    refine ⟨s', ?_, hinv⟩
    show Option.map Prod.fst _ = _
    rw [hcreate, Option.map_some]
  | getStatusMsgConn msg => exact ⟨s, rfl, h⟩
  | setStatusMsgConn msg fd => exact ⟨_, rfl, h.setStatusMsgConn msg fd⟩
  | delIdMapEntry id => exact ⟨_, rfl, h.delIdMapEntry id⟩
  | delConn fd => exact ⟨_, rfl, h.delConn fd⟩
  | tick sockets => exact h.tick hop
  | writeTick sockets => exact h.writeTick

/-- **The table stays coherent.** In every run whose operations meet the condition the table is
defined and coherent in every state, and a call for a destination with a live connection returns
that connection. -/
theorem connection_table_coherent (decode : Data → Option Decoded) (fd : Int) (local_ip : Data)
    (ops : List Op)
    (hallowed : (connInfo decode fd local_ip).Along
      (fun s op => ∀ t, s = some t → t.Allowed decode op) (connInfo decode fd local_ip).init ops) :
    (connInfo decode fd local_ip).Throughout Defined (connInfo decode fd local_ip).init ops ∧
      (connInfo decode fd local_ip).Along (ReturnsLive decode) (connInfo decode fd local_ip).init ops := by
  have hinit : ∃ t, (connInfo decode fd local_ip).init = some t ∧ Inv t :=
    ⟨_, rfl, inv_listening fd local_ip⟩
  have hstep : ∀ s op, (∃ t, s = some t ∧ Inv t) → (∀ t, s = some t → t.Allowed decode op) →
      ∃ t, (connInfo decode fd local_ip).next s op = some t ∧ Inv t := by
    rintro _ op ⟨t, rfl, hinv⟩ hop
    exact hinv.step (hop t rfl)
  constructor
  · refine (Machine.throughout_of_guarded hstep ops _ hinit hallowed).mono ?_
    rintro _ ⟨t, rfl, hinv⟩
    exact ⟨t, rfl, hinv.coherent⟩
  · refine Machine.Along.imp hstep ?_ ops _ hinit hallowed
    -- the condition leaves no connection for the destination of a call
    rintro _ _ _ hop t ipName port connId rfl rfl conn hconn _
    rw [(hop t rfl).2] at hconn
    cases hconn

/-- A tick in which nothing is ready to be read. -/
def idle : Sockets := ⟨fun _ => false, ⟨-1, [], none⟩, fun _ => none, fun _ => 0⟩

/-- A connection is accepted and gets a request, another one is made, the first is deleted. -/
def exchange : List Op :=
  [.accept ⟨5, "10.0.0.2".toList, some "INVITE".toList⟩,
    .setStatusMsgConn (.command (inviteFrom "10.0.0.2".toList "1".toList)) 5,
    .createOrGetPersistentConnection "10.0.0.3".toList 5060 6, .delConn 5, .tick idle]

theorem connection_table_coherent_exchange :
    (connInfo (fun _ => none) 4 "10.0.0.1".toList).Throughout Defined
      (connInfo (fun _ => none) 4 "10.0.0.1".toList).init exchange := by
  refine (connection_table_coherent (fun _ => none) 4 "10.0.0.1".toList exchange
    ⟨?_, ?_, ?_, ?_, ?_, trivial⟩).1
  · intro t ht
    obtain rfl := Option.some.inj ht
    refine ⟨by decide, fun r hr => ?_⟩
    rw [show (listening 4 "10.0.0.1".toList).myDestinationMap "10.0.0.2".toList = none by decide] at hr
    cases hr
  · exact fun _ _ => trivial
  · intro t ht
    obtain rfl := Option.some.inj ht
    exact ⟨by decide, by decide⟩
  · exact fun _ _ => trivial
  · intro t _ s' fd _ hready
    cases hready

/-- A phone registers over its connection. -/
def registerText : Data :=
  (["REGISTER sip:x SIP/2.0", "Via: SIP/2.0/TCP 10.0.0.2;branch=z9hG4bK7", "From: <sip:b@x>",
    "To: <sip:b@x>", "Call-ID: 1@z", "CSeq: 1 REGISTER", "Contact: <sip:10.0.0.2:5060>",
    "Content-Length: 0", ""].map fun line => line.toList ++ "\r\n".toList).flatten

def registerDecoded (text : Data) : Option Decoded :=
  if text = registerText then
    some
      { msg := .command
          { type := .SIP_REGISTER
            requestUrl := .sipUrl { host := "x".toList }
            headers :=
              { toUrl := some (.sipUrl { host := "x".toList, user := some "b".toList })
                toTag := []
                fromUrl := some (.sipUrl { host := "x".toList, user := some "b".toList })
                callId := ⟨"1".toList, "z".toList⟩
                cseq := ⟨"1".toList, "REGISTER".toList⟩
                via := ⟨"TCP".toList, "z9hG4bK7".toList⟩ } }
        contacts := [some (.sipUrl { host := "10.0.0.2".toList, port := "5060".toList })] }
  else none

def registered : List Op :=
  [.accept ⟨5, "10.0.0.2".toList, some []⟩,
    .tick ⟨fun fd => fd = 5, ⟨-1, [], none⟩, fun _ => some registerText, fun _ => 0⟩]

/-- Two persistent connections in turn get the same descriptor, and the first stays in the map of
destinations alone. A phone that has registered is called, and a new connection is made. -/
theorem persistent_connections_break_table :
    ¬ (connInfo registerDecoded 4 "10.0.0.1".toList).Throughout Defined
        (connInfo registerDecoded 4 "10.0.0.1".toList).init
        [.createOrGetPersistentConnection "10.0.0.2".toList 5060 5,
          .createOrGetPersistentConnection "10.0.0.3".toList 5060 5] ∧
      ¬ (connInfo registerDecoded 4 "10.0.0.1".toList).Along (ReturnsLive registerDecoded)
        (connInfo registerDecoded 4 "10.0.0.1".toList).init
        (registered ++ [.createOrGetPersistentConnection "10.0.0.2".toList 5060 6]) := by
  constructor
  · intro h
    obtain ⟨t, ht, hcoherent⟩ := h.last
    obtain rfl := Option.some.inj ht
    obtain ⟨fd, hfd⟩ := hcoherent.recorded 1
      (Or.inr ⟨destinationKey "10.0.0.2".toList 5060, by decide⟩)
    exact absurd hfd ((by decide : ∀ fd ∈ NTcpConnInfo.myMap _ |>.keys, Finmap.lookup fd _ ≠ some 1) fd
      (Finmap.mem_keys.mpr (Finmap.mem_iff.mpr ⟨1, hfd⟩)))
  · rintro ⟨_, _, hreturns, _⟩
    have hstate : (((connInfo registerDecoded 4 "10.0.0.1".toList).run
        (connInfo registerDecoded 4 "10.0.0.1".toList).init registered).map fun t =>
          (t.myDestinationMap (destinationKey "10.0.0.2".toList 5060), t.getConnId 1,
            (t.step registerDecoded
              (.createOrGetPersistentConnection "10.0.0.2".toList 5060 6)).2)) =
        some (some 1, 5, some 2) := by
      decide +kernel
    obtain ⟨t, ht, htable⟩ := Option.map_eq_some_iff.mp hstate
    obtain ⟨hdest, hconn, hout⟩ : _ ∧ _ ∧ _ := by simpa only [Prod.mk.injEq] using htable
    have hlive : t.isLive 1 := by
      rw [isLive, hconn]
      decide
    have := hreturns t "10.0.0.2".toList 5060 6 ht rfl 1 hdest hlive
    rw [hout] at this
    cases this

end Vocal.Sip.NTcpConnInfo
