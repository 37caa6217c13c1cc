import Vocal.Sip.NetworkAddress
import Vocal.Sip.Text.Match
import Vocal.Sip.Transceiver
import Vocal.Sip.Via

/-!
# Replies through a network address translation

`receiveMessage` notes where a request came from. With NAT handling on, `receiveNB` compares the address with the host of
the first Via, and writes address and port into that Via when they differ; a reply takes its Via list from the request,
and its address from the first Via.
-/

namespace Vocal.Sip

/-- A received message, with what the NAT handling reads of it. -/
structure ReceivedMsg where
  vias : List SipViaHeader
  recvdIPName : Data
  recvdIPPort : Data
  deriving DecidableEq, Repr

/-- `SipMsg::getVia` of 0, which makes a header when there is none. -/
def getVia (vias : List SipViaHeader) : SipViaHeader := vias.headD {}

/-- What a C `short` keeps of a value. -/
def toInt16 (v : Int) : Int := v.bmod (2 ^ 16)

/-- `SipUdpConnection::receiveMessage` of a message from an address and a port. -/
def receiveMessage (vias : List SipViaHeader) (sin_addr : UInt32) (sin_port : UInt16) : ReceivedMsg :=
  let senderport := toInt16 sin_port.toNat
  { vias, recvdIPName := vtoStringIp sin_addr, recvdIPPort := Data.ofInt senderport }

/-- `NetworkAddress(hostname).getIpName()`. -/
def ipName (net : NameService) (hostname : Data) : Option Data := do
  (← HostAddress.new net hostname (-1)).getIpName net

/-- The comparison of `SipTransceiver::receiveNB`: the host of the Via is not where the message came from. -/
def isTranslated (net : NameService) (addr1 addr2 : Data) : Option Bool := do
  let netaddr1 ← ipName net addr1
  let netaddr2 ← ipName net addr2
  return netaddr1 ≠ netaddr2 ∨ addr1 = []

/-- A Via with the address and the port that a message came from. -/
def SipViaHeader.setSource (natVia : SipViaHeader) (msg : ReceivedMsg) : SipViaHeader :=
  (natVia.setReceivedhost msg.recvdIPName).setRPort msg.recvdIPPort

/-- The NAT handling of `SipTransceiver::receiveNB`. A message of the stack itself came from nowhere. -/
def receiveNat (net : NameService) (natOn : Bool) (msg : ReceivedMsg) : Option ReceivedMsg :=
  let natVia := getVia msg.vias
  if natOn ∧ msg.recvdIPName ≠ [] then
    (isTranslated net natVia.host msg.recvdIPName).map fun translated =>
      if translated then { msg with vias := natVia.setSource msg :: msg.vias.tail } else msg
  else some msg

/-- `SipUdpConnection::getHostPort` of a response. -/
def getHostPort (via : SipViaHeader) : Data × Int :=
  let host := if via.viaReceived then via.receivedHost else if via.maddr = [] then via.host else via.maddr
  let port := if via.viaReceived then convertInt via.rportValue else via.getPort
  (host, if port = 0 then 5060 else port)

/-- The Via makes a reply go by TCP. -/
def IsTcp (via : SipViaHeader) : Prop := isEqualNoCase via.transport TCP ∨ via.transport = "tcp".toList

instance (via : SipViaHeader) : Decidable (IsTcp via) := inferInstanceAs (Decidable (_ ∨ _))

/-- `SipUdpConnection::send` and `udpSend`: the address and the port that the datagram is sent to, if it is sent.
`htons` takes the lower half of the port. -/
def sendTo (net : NameService) (nhost : Data) (nport : Int) : Option (UInt32 × UInt16) := do
  let na ← HostAddress.new net nhost nport
  let ip ← na.getIp4Address net
  if ip = 0 ∨ na.aPort < 0 then none else some (ip, .ofNat na.aPort.toNat)

/-- `SipTransceiver::sendReply` of a response with a Via list, as far as it goes by UDP. -/
def sendReplyUdp (net : NameService) (vias : List SipViaHeader) : Option (UInt32 × UInt16) :=
  let via := getVia vias
  if IsTcp via then none else sendTo net (getHostPort via).1 (getHostPort via).2

/-- Where the response to a request goes that came from an address and a port: `StatusMsg` copies the Via list. -/
def replyTo (net : NameService) (natOn : Bool) (vias : List SipViaHeader) (sin_addr : UInt32) (sin_port : UInt16) :
    Option (UInt32 × UInt16) := do
  let msg ← receiveNat net natOn (receiveMessage vias sin_addr sin_port)
  sendReplyUdp net msg.vias

/-! ### The text of an address -/

variable {net : NameService} {ip : UInt32} {c : Char}

theorem mem_vtoStringIp (h : c ∈ vtoStringIp ip) : isdigit c = true ∨ c = '.' := by
  simp only [vtoStringIp, List.mem_append, List.mem_cons] at h
  rcases h with h | rfl | h | rfl | h | rfl | h
  all_goals first
    | exact Or.inr rfl
    | exact Or.inl (Data.isdigit_of_mem_ofNat h)

theorem notMem_vtoStringIp (hdigit : isdigit c = false) (hdot : c ≠ '.') (ip : UInt32) : c ∉ vtoStringIp ip := by
  intro h
  rcases mem_vtoStringIp h with h | h
  · rw [h] at hdigit
    cases hdigit
  · exact hdot h

theorem vtoStringIp_ne_nil (ip : UInt32) : vtoStringIp ip ≠ [] := by
  rw [vtoStringIp]
  exact List.append_ne_nil_of_left_ne_nil (Data.ofNat_ne_nil _) _

theorem is_valid_ip6_addr_vtoStringIp (ip : UInt32) : NetworkAddress.is_valid_ip6_addr (vtoStringIp ip) = false := by
  have hbracket : find ['['] (vtoStringIp ip) = none := find_singleton_eq_none (notMem_vtoStringIp rfl (by decide) ip)
  have hmem : ':' ∉ vtoStringIp ip := notMem_vtoStringIp rfl (by decide) ip
  have hgroups : (NetworkAddress.groups (vtoStringIp ip)).length ≤ 1 := by
    rw [NetworkAddress.groups, List.splitOn_eq_singleton fun h => hmem (List.mem_of_mem_take h)]
    exact List.length_filter_le _ _
  simp only [NetworkAddress.is_valid_ip6_addr, NetworkAddress.doubleColon, hbracket, find_singleton_eq_none hmem]
  rw [if_neg (fun h => h rfl), Bool.false_or, decide_eq_false_iff_not]
  omega

theorem new_vtoStringIp (net : NameService) (ip : UInt32) (port : Int) :
    HostAddress.new net (vtoStringIp ip) port =
      some (HostAddress.setIp net false (vtoStringIp ip) { aPort := port, hostName := vtoStringIp ip }) := by
  have hbracket : find [']'] (vtoStringIp ip) = none := find_singleton_eq_none (notMem_vtoStringIp rfl (by decide) ip)
  have hcolon : find [':'] (vtoStringIp ip) = none := find_singleton_eq_none (notMem_vtoStringIp rfl (by decide) ip)
  rw [HostAddress.new, if_neg (vtoStringIp_ne_nil ip)]
  simp only [HostAddress.setHostName, hbracket, is_valid_ip6_addr_vtoStringIp, hcolon]
  rfl

theorem initIpAddress_vtoStringIp (h : net.Knows ip) (port : Int) :
    ∃ a, HostAddress.initIpAddress net
        (HostAddress.setIp net false (vtoStringIp ip) { aPort := port, hostName := vtoStringIp ip }) = some a ∧
      a.hostIP = ip ∧ a.hostIPstring = vtoStringIp ip := by
  rw [NameService.Knows] at h
  rw [HostAddress.setIp, Bool.false_or]
  split
  · exact ⟨_, rfl, by simp only [h, Option.getD_some], rfl⟩
  · rw [HostAddress.initIpAddress, if_neg Bool.false_ne_true, if_neg (vtoStringIp_ne_nil ip)]
    exact ⟨_, rfl, by simp only [h, Option.getD_some], by simp only [h, Option.getD_some]⟩

theorem ipName_vtoStringIp (h : net.Knows ip) : ipName net (vtoStringIp ip) = some (vtoStringIp ip) := by
  obtain ⟨a, hinit, -, hname⟩ := initIpAddress_vtoStringIp h (-1)
  rw [ipName, new_vtoStringIp]
  show (HostAddress.initIpAddress net _).map _ = _
  rw [hinit, Option.map_some, hname]

theorem sendTo_vtoStringIp (h : net.Knows ip) (hip : ip ≠ 0) {port : Int} (hport : 0 ≤ port) :
    sendTo net (vtoStringIp ip) port = some (ip, .ofNat port.toNat) := by
  obtain ⟨a, hinit, hhost, -⟩ := initIpAddress_vtoStringIp h port
  have haPort : (HostAddress.setIp net false (vtoStringIp ip) { aPort := port, hostName := vtoStringIp ip }).aPort =
      port := by
    rw [HostAddress.setIp]
    split
    · rfl
    · rfl
  simp only [sendTo, new_vtoStringIp, Option.bind_eq_bind, Option.bind_some, HostAddress.getIp4Address, hinit,
    Option.map_some, hhost, haPort]
  exact if_neg (not_or.mpr ⟨hip, not_lt.mpr hport⟩)

/-! ### The first Via -/

variable {via : SipViaHeader} {vias : List SipViaHeader} {port : UInt16} {name : Data}

/-- What the short keeps of a port. -/
theorem toInt16_bounds (port : UInt16) (hport : port ≠ 0) :
    -2 ^ 15 ≤ toInt16 port.toNat ∧ toInt16 port.toNat < 2 ^ 15 ∧ toInt16 port.toNat ≠ 0 := by
  have hlt : port.toNat < 2 ^ 16 := port.toNat_lt
  have hne : port.toNat ≠ 0 := fun h => hport (UInt16.toNat_inj.mp h)
  simp only [toInt16, Int.bmod]
  omega

theorem getHostPort_setSource (via : SipViaHeader) (vias : List SipViaHeader) (ip : UInt32) (hport : port ≠ 0) :
    getHostPort (via.setSource (receiveMessage vias ip port)) = (vtoStringIp ip, toInt16 port.toNat) := by
  have hbracketed : SipViaHeader.bracketed (vtoStringIp ip) = vtoStringIp ip := by
    rw [SipViaHeader.bracketed, is_valid_ip6_addr_vtoStringIp]
    rfl
  have hreceived : (via.setSource (receiveMessage vias ip port)).viaReceived = true := by
    show (via.viaReceived || decide (SipViaHeader.bracketed (vtoStringIp ip) ≠ [])) = true
    rw [hbracketed, decide_eq_true (vtoStringIp_ne_nil ip), Bool.or_true]
  have hhost : (via.setSource (receiveMessage vias ip port)).receivedHost = vtoStringIp ip := hbracketed
  obtain ⟨hlow, hhigh, hne⟩ := toInt16_bounds port hport
  have htext : (via.setSource (receiveMessage vias ip port)).rportValue = Data.ofInt (toInt16 port.toNat) := by
    simp only [SipViaHeader.setSource, SipViaHeader.setRPort, receiveMessage]
  have hrport : convertInt (via.setSource (receiveMessage vias ip port)).rportValue = toInt16 port.toNat := by
    rw [htext, convertInt_ofInt (by omega) (by omega)]
  rw [getHostPort, if_pos hreceived, if_pos hreceived, hrport, if_neg hne, hhost]

theorem isTranslated_vtoStringIp {host : Data} (hname : ipName net host = some name) (hknown : net.Knows ip) :
    isTranslated net host (vtoStringIp ip) = some (decide (name ≠ vtoStringIp ip ∨ host = [])) := by
  rw [isTranslated, hname, ipName_vtoStringIp hknown]
  rfl

theorem receiveNat_eq (hname : ipName net (getVia vias).host = some name) (hknown : net.Knows ip) (port : UInt16) :
    receiveNat net true (receiveMessage vias ip port) =
      some (if name ≠ vtoStringIp ip ∨ (getVia vias).host = [] then
        { receiveMessage vias ip port with
          vias := (getVia vias).setSource (receiveMessage vias ip port) :: vias.tail }
      else receiveMessage vias ip port) := by
  rw [receiveNat, if_pos ⟨rfl, vtoStringIp_ne_nil ip⟩]
  show (isTranslated net (getVia vias).host (vtoStringIp ip)).map _ = _
  rw [isTranslated_vtoStringIp hname hknown, Option.map_some]
  simp only [decide_eq_true_eq]
  rfl

theorem sendReplyUdp_cons (net : NameService) (via : SipViaHeader) (vias : List SipViaHeader) :
    sendReplyUdp net (via :: vias) = if IsTcp via then none else sendTo net (getHostPort via).1 (getHostPort via).2 :=
  rfl

theorem replyTo_of_ne (hname : ipName net (getVia vias).host = some name) (hknown : net.Knows ip)
    (h : name ≠ vtoStringIp ip ∨ (getVia vias).host = []) (hport : port ≠ 0) (hudp : ¬ IsTcp (getVia vias)) :
    replyTo net true vias ip port = sendTo net (vtoStringIp ip) (toInt16 port.toNat) := by
  have hudp' : ¬ IsTcp ((getVia vias).setSource (receiveMessage vias ip port)) := hudp
  rw [replyTo, receiveNat_eq hname hknown, if_pos h]
  show sendReplyUdp net ((getVia vias).setSource (receiveMessage vias ip port) :: vias.tail) = _
  rw [sendReplyUdp_cons, if_neg hudp', getHostPort_setSource _ _ _ hport]

/-- With NAT handling, the reply to a request whose first Via names another host than the source goes to the address and
port of the source, and where it names the source, to the address and port that it gives. -/
theorem replyTo_nat (hsource : ip ≠ 0) (hknown : net.Knows ip) (hport : port ≠ 0) (hudp : ¬ IsTcp (getVia vias))
    (hname : ipName net (getVia vias).host = some name) :
    (name ≠ vtoStringIp ip ∨ (getVia vias).host = [] → port.toNat < 2 ^ 15 →
      replyTo net true vias ip port = some (ip, port)) ∧
    (name = vtoStringIp ip → (getVia vias).host ≠ [] →
      replyTo net true vias ip port =
        sendTo net (getHostPort (getVia vias)).1 (getHostPort (getVia vias)).2) := by
  constructor
  · intro h hlt
    have hshort : toInt16 port.toNat = port.toNat := by
      simp only [toInt16, Int.bmod]
      omega
    rw [replyTo_of_ne hname hknown h hport hudp, hshort, sendTo_vtoStringIp hknown hsource (by omega)]
    simp
  · intro heq h
    rw [replyTo, receiveNat_eq hname hknown, if_neg (not_or.mpr ⟨not_not.mpr heq, h⟩)]
    show sendReplyUdp net vias = _
    rw [sendReplyUdp, if_neg hudp]

/-- A system that knows no names. -/
def plainNames : NameService where
  gethostbyname ip := if ip = "255.255.255.255".toList then some 0xffffffff else none
  localHostName := "localhost".toList

theorem knows_plainNames (ip : UInt32) : plainNames.Knows ip := by
  by_cases h : ip = 0xffffffff
  · rw [h, NameService.Knows]
    decide
  · exact plainNames.knows_of_ne h

/-- The Via of a client at a private address. -/
def privateVia : SipViaHeader := { host := "10.0.0.1".toList, port := "5060".toList }

example : SipViaHeader.decode true [] "SIP/2.0/UDP 10.0.0.1:5060".toList = some privateVia := by decide

theorem replyTo_nat_private :
    (some "10.0.0.1".toList = ipName plainNames privateVia.host ∧
      replyTo plainNames true [privateVia] 0xc0000201 6000 = some (0xc0000201, 6000)) ∧
    replyTo plainNames true [privateVia] 0x0a000001 6000 = sendTo plainNames "10.0.0.1".toList 5060 := by
  have hname : ipName plainNames (getVia [privateVia]).host = some "10.0.0.1".toList := by decide
  refine ⟨⟨hname.symm, ?_⟩, ?_⟩
  · exact (replyTo_nat (by decide) (knows_plainNames 0xc0000201) (by decide) (by decide) hname).1 (Or.inl (by decide))
      (by decide)
  · exact (replyTo_nat (by decide) (knows_plainNames 0x0a000001) (by decide) (by decide) hname).2 (by decide)
      (by decide)

/-- A client that is not translated and sends from another port than that of its Via. -/
theorem not_replyTo_source :
    ¬ ∀ (net : NameService) (vias : List SipViaHeader) (ip : UInt32) (port : UInt16), net.Knows ip → ip ≠ 0 → port ≠ 0 →
      ¬ IsTcp (getVia vias) → (ipName net (getVia vias).host).isSome →
      replyTo net true vias ip port = some (ip, port) := by
  intro h
  have hreply := h plainNames [privateVia] 0x0a000001 6000 (knows_plainNames _) (by decide) (by decide) (by decide)
    (by decide)
  have hother : replyTo plainNames true [privateVia] 0x0a000001 6000 = some (0x0a000001, 5060) := by decide
  rw [hother] at hreply
  exact absurd hreply (by decide)

end Vocal.Sip
