import Mathlib.Data.List.Nodup
import Vocal.Rtcp.Layout

/-!
# The round trip of a compound packet

Every compound packet that is built is accepted and read to its end. The receiver copies one byte more than a text has,
and only the zero behind the last item ends it: so a text comes back exactly when no other item follows.
-/

namespace Vocal.Rtcp

open Bytes RtcpTransmitter RtcpReceiver

/-! ## Headers -/

section

variable {d x rest : Bytes} {c n turns : Nat} {type : UInt8}

theorem toNat_headerByte (c : Nat) : (headerByte c).toNat = 128 + c % 32 := by
  have hlt : c % 32 < 32 := Nat.mod_lt _ (by decide)
  rw [headerByte, UInt8.toNat_ofNat', RTP_VERSION]
  omega

theorem version_headerByte (c : Nat) : version (headerByte c) = RTP_VERSION := by
  have hlt : c % 32 < 32 := Nat.mod_lt _ (by decide)
  rw [version, toNat_headerByte, RTP_VERSION]
  omega

theorem padding_headerByte (c : Nat) : padding (headerByte c) = false := by
  have hlt : c % 32 < 32 := Nat.mod_lt _ (by decide)
  rw [padding, toNat_headerByte, decide_eq_false_iff_not]
  omega

theorem count_headerByte (c : Nat) : count (headerByte c) = c % 32 := by
  rw [count, toNat_headerByte]
  omega

theorem byteAt_header (hd : d = x ++ (packetHeader c type n ++ rest)) : byteAt d x.length = some (headerByte c) := by
  rw [hd]
  exact byteAt_append x _ 0

theorem byteAt_header_one (hd : d = x ++ (packetHeader c type n ++ rest)) : byteAt d (x.length + 1) = some type := by
  rw [hd]
  exact byteAt_append x _ 1

theorem word16At_header (hd : d = x ++ (packetHeader c type n ++ rest)) :
    word16At d (x.length + 2) = some (.ofNat ((4 + n) / 4 - 1)) := by
  rw [hd, word16At_append]
  exact congrArg some (word16_ofWord16 _)

theorem nextPacket_header (head : Nat) (hmod : n % 4 = 0) (hlt : n < 2 ^ 16) :
    nextPacket head (.ofNat ((4 + n) / 4 - 1)) = head + (4 + n) := by
  rw [nextPacket, UInt16.toNat_ofNat']
  omega

theorem headersEnd_packet (hd : d = x ++ (packetHeader c type n ++ rest)) (hmod : n % 4 = 0) (hlt : n < 2 ^ 16)
    (turns : Nat) : headersEnd d (turns + 1) x.length = headersEnd d turns (x.length + (4 + n)) := by
  have hfits : x.length + 4 ≤ d.length := by
    rw [hd, List.length_append, List.length_append, length_packetHeader]
    omega
  rw [headersEnd, byteAt_header hd, Option.any_some, word16At_header hd, Option.getD_some, nextPacket_header _ hmod hlt,
    if_pos ⟨hfits, decide_eq_true (version_headerByte c)⟩]

theorem headersEnd_end (turns : Nat) : headersEnd d turns d.length = d.length := by
  cases turns with
  | zero => rfl
  | succ turns => rw [headersEnd, if_neg (by omega)]

variable {ρ : Type} {s s' : RtcpReceiver ρ} {now : NtpTime} (packets : Nat) (ret : Int)

theorem readPackets_packet (hd : d = x ++ (packetHeader c type n ++ rest)) (hmod : n % 4 = 0) (hlt : n < 2 ^ 16)
    (hread : readPacket now d turns x.length type s = .ok s') :
    readPackets now d turns (packets + 1) x.length ret s =
      readPackets now d turns packets (x.length + (4 + n)) (if type = rtcpTypeBYE then 1 else ret) s' := by
  have hfits : x.length < d.length := by
    rw [hd, List.length_append, List.length_append, length_packetHeader]
    omega
  rw [readPackets, if_pos hfits, access_bind (byteAt_header_one hd), ok_bind hread, access_bind (word16At_header hd),
    nextPacket_header _ hmod hlt]

theorem readPackets_end : readPackets now d turns (packets + 1) d.length ret s = .ok (ret, s) := by
  rw [readPackets, if_neg (Nat.lt_irrefl _)]

end

/-! ## Texts -/

section

variable {ρ : Type} {s : RtcpReceiver ρ} {ssrc : UInt32}

/-- A text in its array, with the byte behind it if that is no zero. -/
def setText (text : SdesText) (bytes : Bytes) (next : UInt8) (info : RtpTranInfo ρ) : RtpTranInfo ρ :=
  let stored := strncpy (info.SDESInfo text) (bytes ++ if next = 0 then [] else [next]) (bytes.length + 1)
  { info with SDESInfo := Function.update info.SDESInfo text stored }

theorem SDESInfo_setText (text : SdesText) (bytes : Bytes) (next : UInt8) (info : RtpTranInfo ρ) :
    (setText text bytes next info).SDESInfo text =
      strncpy (info.SDESInfo text) (bytes ++ if next = 0 then [] else [next]) (bytes.length + 1) :=
  Function.update_self ..

/-- The type of the first item, or zero behind the last. -/
def nextType : List (SdesText × Bytes) → UInt8
  | [] => 0
  | i :: _ => i.1.type

def setTexts : List (SdesText × Bytes) → RtpTranInfo ρ → RtpTranInfo ρ
  | [], info => info
  | i :: items, info => setTexts items (setText i.1 i.2 (nextType items) info)

theorem type_ne_zero (text : SdesText) : text.type ≠ 0 := by
  cases text <;> decide

theorem ofType_type (text : SdesText) : SdesText.ofType text.type = some text := by
  cases text <;> rfl

theorem modifyTranInfo_modifyTranInfo (f g : RtpTranInfo ρ → RtpTranInfo ρ) :
    (s.modifyTranInfo ssrc f).modifyTranInfo ssrc g = s.modifyTranInfo ssrc (g ∘ f) := by
  simp only [modifyTranInfo, Function.update_self, Function.update_idem, Option.getD_some, Function.comp_apply]

/-- The byte behind a text is copied with it. -/
theorem copied_text {bytes more : Bytes} {next : UInt8} (hzero : 0 ∉ bytes) :
    copied (bytes ++ next :: more) (bytes.length + 1) = some (bytes ++ if next = 0 then [] else [next]) := by
  have hall : ∀ b ∈ bytes, decide (b ≠ 0) = true := fun b hb => decide_eq_true fun h => hzero (h ▸ hb)
  have htake : (bytes ++ next :: more).take (bytes.length + 1) = bytes ++ [next] := by
    rw [List.take_length_add_append]
    rfl
  rw [copied, if_pos (Or.inl (by rw [List.length_append, List.length_cons]; omega)), htake,
    List.takeWhile_append_of_pos hall]
  split_ifs with h
  · rw [h]
    rfl
  · simp [h]

theorem exists_itemBytes (items : List (SdesText × Bytes)) (rest : Bytes) :
    ∃ more, itemBytes items ++ 0 :: rest = nextType items :: more := by
  cases items with
  | nil => exact ⟨rest, rfl⟩
  | cons i items => exact ⟨_, rfl⟩

variable (s ssrc) in
theorem readItems_itemBytes {d x rest : Bytes} {items : List (SdesText × Bytes)}
    (hd : d = x ++ (itemBytes items ++ 0 :: rest)) (hitems : ∀ i ∈ items, i.2.length < 255 ∧ 0 ∉ i.2) {turns : Nat}
    (hturns : items.length < turns) (f : RtpTranInfo ρ → RtpTranInfo ρ) :
    readItems d ssrc turns x.length (s.modifyTranInfo ssrc f) =
      .ok (x.length + (itemBytes items).length, s.modifyTranInfo ssrc (setTexts items ∘ f)) := by
  induction items generalizing x f turns with
  | nil =>
    obtain ⟨turns, rfl⟩ := Nat.exists_eq_add_one_of_ne_zero (Nat.ne_of_gt hturns)
    have hzero : byteAt d x.length = some 0 := by
      rw [hd]
      exact byteAt_append x _ 0
    rw [readItems, access_bind hzero, if_pos rfl]
    rfl
  | cons i items ih =>
    obtain ⟨turns, rfl⟩ := Nat.exists_eq_add_one_of_ne_zero (Nat.ne_of_gt (Nat.zero_lt_of_lt hturns))
    obtain ⟨⟨hlen, hzero⟩, hrest⟩ := List.forall_mem_cons.mp hitems
    have htype : byteAt d x.length = some i.1.type := by
      rw [hd]
      exact byteAt_append x _ 0
    have hlength : byteAt d (x.length + 1) = some (.ofNat i.2.length) := by
      rw [hd]
      exact byteAt_append x _ 1
    have hlength' := toNat_length (show i.2.length < 256 by omega)
    have hadd : addSDESItem d ssrc x.length (s.modifyTranInfo ssrc f) =
        .ok (s.modifyTranInfo ssrc (setText i.1 i.2 (nextType items) ∘ f)) := by
      obtain ⟨more, hmore⟩ := exists_itemBytes items rest
      have hcopied : copied (d.drop (x.length + 2)) ((UInt8.ofNat i.2.length).toNat + 1) =
          some (i.2 ++ if nextType items = 0 then [] else [nextType items]) := by
        have hdrop : d.drop (x.length + 2) = i.2 ++ (itemBytes items ++ 0 :: rest) := by
          rw [hd, drop_length_add]
          exact List.append_assoc ..
        rw [hdrop, hmore, hlength', copied_text hzero]
      rw [addSDESItem, access_bind htype, ofType_type]
      refine (access_bind hlength _).trans ((access_bind hcopied _).trans ?_)
      rw [← modifyTranInfo_modifyTranInfo, hlength']
      rfl
    have hnext : d = (x ++ i.1.type :: .ofNat i.2.length :: i.2) ++ (itemBytes items ++ 0 :: rest) := by
      rw [hd, List.append_assoc]
      exact congrArg (x ++ ·) (List.append_assoc ..)
    have hplace : x.length + 2 + (UInt8.ofNat i.2.length).toNat =
        (x ++ i.1.type :: .ofNat i.2.length :: i.2).length := by
      rw [hlength', List.length_append, List.length_cons, List.length_cons]
      omega
    rw [readItems, access_bind htype, if_neg (type_ne_zero _), ok_bind hadd, access_bind hlength, hplace,
      ih hnext hrest (Nat.lt_of_succ_lt_succ hturns)]
    congr 2
    rw [itemBytes, List.length_append, List.length_append, Nat.add_assoc]

end

/-! ## The three packets -/

section

variable {ρ : Type} (s : RtcpReceiver ρ) (later : NtpTime) (turns : Nat) {d x rest : Bytes}

theorem readPacket_report {tran : RtpTransmitter} {now : NtpTime} {table : List (RtpTranInfo Reception)}
    (hd : d = reportBytes tran now table ++ rest) :
    readPacket later d turns 0 rtcpTypeSR s =
      .ok (s.modifyTranInfo tran.ssrc (stampSR later now.seconds now.fractional)) := by
  have hlen := length_reportBytes tran now table
  have htype : byteAt d 1 = some rtcpTypeSR := by
    rw [hd]
    rfl
  have hcount : byteAt d 0 = some (headerByte (reportBlocks now table).length) := by
    rw [hd]
    rfl
  have hssrc : word32At d 4 = some tran.ssrc := by
    rw [hd]
    exact congrArg some (word32_ofWord32 _)
  have hsec : word32At d 8 = some now.seconds := by
    rw [hd]
    exact congrArg some (word32_ofWord32 _)
  have hfrac : word32At d 12 = some now.fractional := by
    rw [hd]
    exact congrArg some (word32_ofWord32 _)
  have hfit : ReportsFit d (count (headerByte (reportBlocks now table).length)) 28 := by
    right
    have hmod := Nat.mod_le (reportBlocks now table).length 32
    rw [count_headerByte, hd, List.length_append, hlen]
    omega
  rw [readPacket, if_pos (Or.inl rfl), readSR, access_bind htype, access_bind hcount, if_pos rfl, access_bind hssrc,
    access_bind hsec, access_bind hfrac, ok_bind (readReports_ok_iff.mpr hfit)]
  rfl

theorem readPacket_descriptions {ssrc : UInt32} {items : List (SdesText × Bytes)} {n : Nat}
    (hd : d = x ++ (packetHeader 1 rtcpTypeSDES n ++ (chunkBytes ssrc items ++ rest)))
    (hitems : ∀ i ∈ items, i.2.length < 255 ∧ 0 ∉ i.2) (hturns : items.length < turns)
    (f : RtpTranInfo ρ → RtpTranInfo ρ) :
    readPacket later d turns x.length rtcpTypeSDES (s.modifyTranInfo ssrc f) =
      .ok (s.modifyTranInfo ssrc (setTexts items ∘ f)) := by
  have hssrc : word32At d (x.length + 4) = some ssrc := by
    rw [hd, word32At_append]
    exact congrArg some (word32_ofWord32 _)
  have hitem : d = (x ++ (packetHeader 1 rtcpTypeSDES n ++ ofWord32 ssrc)) ++ (itemBytes items ++ 0 :: 0 :: rest) := by
    rw [hd, chunkBytes]
    simp
  have hplace : x.length + 4 + 4 = (x ++ (packetHeader 1 rtcpTypeSDES n ++ ofWord32 ssrc)).length := by
    rw [List.length_append, List.length_append, length_packetHeader, length_ofWord32, Nat.add_assoc]
  have hread := readItems_itemBytes s ssrc hitem hitems hturns f
  rw [readPacket, if_neg (by decide), if_pos rfl, readSDES, access_bind (byteAt_header hd), count_headerByte]
  show readChunks d turns (0 + 1) (x.length + 4) _ = _
  rw [readChunks, access_bind hssrc, hplace, ok_bind hread]
  rfl

theorem readPacket_goodbye {ssrc : UInt32} {n : Nat} (hd : d = x ++ (packetHeader 1 rtcpTypeBYE n ++ (ofWord32 ssrc ++ rest)))
    (f : RtpTranInfo ρ → RtpTranInfo ρ) :
    ∃ s', readPacket later d turns x.length rtcpTypeBYE (s.modifyTranInfo ssrc f) = .ok s' ∧
      s'.removed = s.removed ++ [f ((s.tranInfoList ssrc).getD { ssrc })] := by
  have hssrc : word32At d (x.length + 4) = some ssrc := by
    rw [hd, word32At_append]
    exact congrArg some (word32_ofWord32 _)
  have hremove : ∃ s', (s.modifyTranInfo ssrc f).removeTranInfo ssrc false = .ok s' ∧
      s'.removed = s.removed ++ [f ((s.tranInfoList ssrc).getD { ssrc })] := by
    simp only [removeTranInfo, modifyTranInfo, Function.update_self]
    exact ⟨_, rfl, rfl⟩
  obtain ⟨s', hs', hremoved⟩ := hremove
  refine ⟨s', ?_, hremoved⟩
  rw [readPacket, if_neg (by decide), if_neg (by decide), if_pos rfl, readBYE, access_bind (byteAt_header hd),
    count_headerByte]
  show readSources d (0 + 1) (x.length + 4) _ = _
  rw [readSources, access_bind hssrc, ok_bind hs']
  rfl

end

/-! ## The compound -/

section

variable {t : RtcpTransmitter} {tran : RtpTransmitter} {now later : NtpTime} {bye : Option (Option Bytes)}
  {p : RtcpPacket}

theorem packetBytes_eq (count : Nat) (type : UInt8) (body : Bytes) :
    packetBytes count type body = packetHeader count type (body.length + padSize body.length) ++
      (body ++ List.replicate (padSize body.length) 0) := rfl

theorem reportBytes_eq (tran : RtpTransmitter) (now : NtpTime) (table : List (RtpTranInfo Reception)) :
    reportBytes tran now table = packetHeader (reportBlocks now table).length rtcpTypeSR
      (24 + 24 * (reportBlocks now table).length) ++ (senderInfo tran now ++ (reportBlocks now table).flatten) := rfl

variable (t tran now bye) in
theorem compoundBytes_report : compoundBytes t tran now bye =
    [] ++ (packetHeader (reportBlocks now t.tranInfoList).length rtcpTypeSR
        (24 + 24 * (reportBlocks now t.tranInfoList).length) ++
      ((senderInfo tran now ++ (reportBlocks now t.tranInfoList).flatten) ++
        (packetBytes 1 rtcpTypeSDES (chunkBytes tran.ssrc t.items) ++ byeBytes tran.ssrc bye))) := by
  rw [compoundBytes, reportBytes_eq, List.append_assoc, List.nil_append]

/-- The bytes of the chunk, with the padding of its packet. -/
def chunkSize (tran : RtpTransmitter) (t : RtcpTransmitter) : Nat :=
  (chunkBytes tran.ssrc t.items).length + padSize (chunkBytes tran.ssrc t.items).length

variable (t tran now bye) in
theorem compoundBytes_descriptions : compoundBytes t tran now bye =
    reportBytes tran now t.tranInfoList ++ (packetHeader 1 rtcpTypeSDES (chunkSize tran t) ++
      (chunkBytes tran.ssrc t.items ++
        (List.replicate (padSize (chunkBytes tran.ssrc t.items).length) 0 ++ byeBytes tran.ssrc bye))) := by
  rw [compoundBytes, packetBytes_eq, List.append_assoc, List.append_assoc]
  rfl

/-- The bytes of a goodbye, with its padding. -/
def goodbyeSize (reason : Option Bytes) : Nat :=
  (4 + (reasonBytes reason).length) + padSize (4 + (reasonBytes reason).length)

variable (t tran now) in
theorem compoundBytes_goodbye (reason : Option Bytes) : compoundBytes t tran now (some reason) =
    (reportBytes tran now t.tranInfoList ++ packetBytes 1 rtcpTypeSDES (chunkBytes tran.ssrc t.items)) ++
      (packetHeader 1 rtcpTypeBYE (goodbyeSize reason) ++ (ofWord32 tran.ssrc ++
        (reasonBytes reason ++ List.replicate (padSize (4 + (reasonBytes reason).length)) 0))) := by
  rw [compoundBytes, byeBytes, packetBytes_eq 1 rtcpTypeBYE, List.length_append, length_ofWord32,
    List.append_assoc (ofWord32 tran.ssrc), List.append_assoc]
  rfl

variable (t tran now bye) in
theorem length_compoundBytes : (compoundBytes t tran now bye).length =
    (4 + (24 + 24 * (reportBlocks now t.tranInfoList).length)) + (4 + chunkSize tran t) +
      bye.elim 0 (4 + goodbyeSize ·) := by
  rw [compoundBytes, List.length_append, List.length_append, length_reportBytes, length_packetBytes, chunkSize]
  cases bye with
  | none => rw [byeBytes, List.length_nil, Option.elim_none]; omega
  | some reason =>
    rw [byeBytes, length_packetBytes, List.length_append, length_ofWord32, Option.elim_some, goodbyeSize]
    omega

theorem byteAt_packetData {i : Nat} {b : UInt8} (h : byteAt p.datagram i = some b) :
    byteAt p.packetData.1 i = some b := by
  have hlt := isSome_byteAt.mp (Option.isSome_of_eq_some h)
  have hlen := length_datagram p
  rw [byteAt, List.head?_drop] at h ⊢
  rw [RtcpPacket.datagram, List.getElem?_take_of_lt (by omega)] at h
  exact h

theorem length_descriptions : (reportBytes tran now t.tranInfoList ++
      packetBytes 1 rtcpTypeSDES (chunkBytes tran.ssrc t.items)).length =
    (4 + (24 + 24 * (reportBlocks now t.tranInfoList).length)) + (4 + chunkSize tran t) := by
  rw [List.length_append, length_reportBytes, length_packetBytes, chunkSize]
  omega

theorem headersEnd_compound (hsize : (compoundBytes t tran now bye).length ≤ RTCP_PACKETSIZE) (turns : Nat) :
    headersEnd (compoundBytes t tran now bye) (turns + 3) 0 = (compoundBytes t tran now bye).length := by
  have hsize' : RTCP_PACKETSIZE < 2 ^ 12 := by decide
  have hlength := length_compoundBytes t tran now bye
  have hreport := headersEnd_packet (compoundBytes_report t tran now bye) (by omega) (by omega) (turns + 2)
  have hsdes := headersEnd_packet (compoundBytes_descriptions t tran now bye) (padSize_mod _) (by omega) (turns + 1)
  rw [length_reportBytes, show 28 + 24 * (reportBlocks now t.tranInfoList).length =
    4 + (24 + 24 * (reportBlocks now t.tranInfoList).length) by omega] at hsdes
  rw [List.length_nil, Nat.zero_add] at hreport
  rw [hreport, hsdes]
  cases bye with
  | none =>
    rw [Option.elim_none, Nat.add_zero] at hlength
    rw [← hlength, headersEnd_end]
  | some reason =>
    rw [Option.elim_some] at hlength
    have hbye := headersEnd_packet (compoundBytes_goodbye t tran now reason) (padSize_mod _)
      (by omega) turns
    rw [length_descriptions, ← hlength] at hbye
    rw [hbye, headersEnd_end]

theorem isValid_of_compound (h : p.datagram = compoundBytes t tran now bye) : p.isValid = true := by
  have hsize : p.datagram.length ≤ RTCP_PACKETSIZE := by
    rw [length_datagram]
    exact Nat.sub_le ..
  have hlength := length_compoundBytes t tran now bye
  have hfirst : byteAt p.datagram 0 = some (headerByte (reportBlocks now t.tranInfoList).length) := by
    rw [h]
    rfl
  have htype : byteAt p.datagram 1 = some rtcpTypeSR := by
    rw [h]
    rfl
  rw [h] at hsize
  have hend := headersEnd_compound hsize ((compoundBytes t tran now bye).length - 3)
  rw [Nat.sub_add_cancel (by omega)] at hend
  have hused : p.getTotalUsage = (compoundBytes t tran now bye).length := by rw [← length_datagram, h]
  rw [RtcpPacket.isValid, byteAt_packetData htype, byteAt_packetData hfirst, h, hused, hend]
  simp [rtcpTypeSR, padding_headerByte]

/-- The entry of a source after a packet: in the table, or taken out of it when the source has left. -/
def IsEntry {ρ : Type} (s s' : RtcpReceiver ρ) (ssrc : UInt32) (bye : Option (Option Bytes)) (info : RtpTranInfo ρ) : Prop :=
  if bye.isSome then s'.removed = s.removed ++ [info] else s'.tranInfoList ssrc = some info

theorem length_items_le (t : RtcpTransmitter) : t.items.length ≤ 7 := by
  rw [items, List.length_map]
  exact List.length_filter_le _ texts

theorem mem_items (t : RtcpTransmitter) : ∀ i ∈ t.items, i.2.length < 255 ∧ 0 ∉ i.2 := by
  intro i hi
  obtain ⟨text, -, rfl⟩ := List.mem_map.mp hi
  exact ⟨t.length_lt text, t.zero_notMem text⟩

/-- The reader gets to the end, and the entry of the sender has what the items give. -/
theorem readRTCP_of_compound {ρ : Type} (h : p.datagram = compoundBytes t tran now bye) (s : RtcpReceiver ρ) :
    ∃ ret s', readRTCP later p s = .ok (ret, s') ∧ IsEntry s s' tran.ssrc bye
      (setTexts t.items (stampSR later now.seconds now.fractional ((s.tranInfoList tran.ssrc).getD { ssrc := tran.ssrc }))) := by
  have hsize : (compoundBytes t tran now bye).length ≤ RTCP_PACKETSIZE := by
    rw [← h, length_datagram]
    exact Nat.sub_le ..
  have hsize' : RTCP_PACKETSIZE < 2 ^ 12 := by decide
  have hlength := length_compoundBytes t tran now bye
  have hused : p.getTotalUsage = (compoundBytes t tran now bye).length := by rw [← length_datagram, h]
  obtain ⟨packets, hpackets⟩ : ∃ packets, p.getTotalUsage + 1 = packets + 1 + 1 + 1 + 1 :=
    ⟨p.getTotalUsage - 3, by omega⟩
  have hturns : t.items.length < p.getTotalUsage + 1 := by
    have := length_items_le t
    omega
  have hreport := readPackets_packet (packets + 1 + 1 + 1) 0 (compoundBytes_report t tran now bye) (by omega) (by omega)
    (readPacket_report s later (p.getTotalUsage + 1) rfl)
  have hsdes := readPackets_packet (packets + 1 + 1) 0 (compoundBytes_descriptions t tran now bye) (padSize_mod _)
    (by omega) (readPacket_descriptions s later (p.getTotalUsage + 1) (compoundBytes_descriptions t tran now bye)
      (mem_items t) hturns (stampSR later now.seconds now.fractional))
  rw [List.length_nil, Nat.zero_add, if_neg (by decide)] at hreport
  rw [length_reportBytes, show 28 + 24 * (reportBlocks now t.tranInfoList).length =
    4 + (24 + 24 * (reportBlocks now t.tranInfoList).length) by omega, if_neg (by decide)] at hsdes
  have hread : readRTCP later p s = readPackets later (compoundBytes t tran now bye) (p.getTotalUsage + 1)
      (packets + 1 + 1 + 1 + 1) 0 0 s := by
    rw [readRTCP, h, ← hpackets]
  rw [hread, hreport, hsdes]
  cases bye with
  | none =>
    rw [Option.elim_none, Nat.add_zero] at hlength
    rw [← hlength, readPackets_end]
    refine ⟨0, _, rfl, ?_⟩
    rw [IsEntry, if_neg (by decide)]
    exact Function.update_self ..
  | some reason =>
    rw [Option.elim_some] at hlength
    obtain ⟨s', hs', hremoved⟩ := readPacket_goodbye s later (p.getTotalUsage + 1)
      (compoundBytes_goodbye t tran now reason) (setTexts t.items ∘ stampSR later now.seconds now.fractional)
    have hbye := readPackets_packet (packets + 1) 0 (compoundBytes_goodbye t tran now reason) (padSize_mod _) (by omega)
      hs'
    rw [length_descriptions, ← hlength, if_pos rfl] at hbye
    rw [hbye, readPackets_end]
    exact ⟨1, s', rfl, hremoved⟩

end

/-! ## What comes back -/

section

variable {ρ : Type}

/-- A string up to its zero. -/
def cString (bytes : Bytes) : Bytes := bytes.takeWhile (· ≠ 0)

/-- The texts of a sender have come: those that are not empty are there, byte for byte, and the others as before. -/
def Stored (t : RtcpTransmitter) (old info : RtpTranInfo ρ) : Prop :=
  ∀ text, if t.SDESInfo text = [] then info.SDESInfo text = old.SDESInfo text
    else cString (info.SDESInfo text) = t.SDESInfo text

/-- The compound packet is built and accepted, and the receiver has the texts. -/
def RoundTrips (t : RtcpTransmitter) (tran : RtpTransmitter) (now : NtpTime) (bye : Option (Option Bytes))
    (later : NtpTime) (s : RtcpReceiver ρ) : Prop :=
  ∃ p, t.compound now bye = .ok p ∧ p.isValid = true ∧ ∃ ret s', readRTCP later p s = .ok (ret, s') ∧
    ∃ info, IsEntry s s' tran.ssrc bye info ∧
      Stored t ((s.tranInfoList tran.ssrc).getD { ssrc := tran.ssrc }) info

theorem takeWhile_text {bytes more : Bytes} (hzero : 0 ∉ bytes) :
    (bytes ++ more).takeWhile (· ≠ 0) = bytes ++ more.takeWhile (· ≠ 0) :=
  List.takeWhile_append_of_pos fun _ hb => decide_eq_true fun h => hzero (h ▸ hb)

theorem cString_last {dst bytes : Bytes} (hzero : 0 ∉ bytes) :
    cString (strncpy dst (bytes ++ []) (bytes.length + 1)) = bytes := by
  have hone : bytes.length + 1 - bytes.length = 1 := by omega
  rw [cString, strncpy, List.append_nil, hone, List.append_assoc, takeWhile_text hzero]
  exact List.append_nil _

theorem cString_next {dst bytes : Bytes} {next : UInt8} (hzero : 0 ∉ bytes) (hnext : next ≠ 0) :
    cString (strncpy dst (bytes ++ [next]) (bytes.length + 1)) ≠ bytes := by
  intro h
  have hlen := congrArg List.length h
  rw [cString, strncpy, List.append_assoc, List.append_assoc, takeWhile_text hzero, List.length_append] at hlen
  have hpos : 0 < (([next] ++ (List.replicate (bytes.length + 1 - (bytes ++ [next]).length) 0 ++
      dst.drop (bytes.length + 1))).takeWhile (· ≠ 0)).length := by
    rw [List.singleton_append, List.takeWhile_cons, if_pos (decide_eq_true hnext), List.length_cons]
    exact Nat.succ_pos _
  omega

theorem SDESInfo_setTexts {items : List (SdesText × Bytes)} {text : SdesText} (h : text ∉ items.map (·.1))
    (info : RtpTranInfo ρ) : (setTexts items info).SDESInfo text = info.SDESInfo text := by
  induction items generalizing info with
  | nil => rfl
  | cons i items ih =>
    obtain ⟨hne, hrest⟩ := not_or.mp (List.mem_cons.not.mp h)
    rw [setTexts, ih hrest]
    exact Function.update_of_ne hne ..

theorem mem_keys {t : RtcpTransmitter} {text : SdesText} : text ∈ t.items.map (·.1) ↔ t.SDESInfo text ≠ [] := by
  have hall : text ∈ texts := by cases text <;> decide
  rw [items, List.map_map, List.mem_map]
  constructor
  · rintro ⟨text', hmem, rfl⟩
    exact of_decide_eq_true (List.mem_filter.mp hmem).2
  · exact fun h => ⟨text, List.mem_filter.mpr ⟨hall, decide_eq_true h⟩, rfl⟩

theorem nodup_keys (t : RtcpTransmitter) : (t.items.map (·.1)).Nodup := by
  have hall : texts.Nodup := by decide
  rw [items, List.map_map]
  exact (List.map_id' _).symm ▸ hall.filter _

theorem SDESInfo_of_mem {t : RtcpTransmitter} {i : SdesText × Bytes} (hi : i ∈ t.items) : t.SDESInfo i.1 = i.2 := by
  obtain ⟨text, -, rfl⟩ := List.mem_map.mp hi
  rfl

/-- The texts come back exactly when at most one of them is not empty. -/
theorem stored_iff (t : RtcpTransmitter) {old info : RtpTranInfo ρ} (hinfo : info.SDESInfo = old.SDESInfo) :
    Stored t old (setTexts t.items info) ↔ t.items.length ≤ 1 := by
  have hkeys (text : SdesText) : t.SDESInfo text = [] ↔ text ∉ t.items.map (·.1) := by
    rw [mem_keys, not_not]
  have hnodup := nodup_keys t
  constructor
  · intro h
    by_contra hmany
    obtain ⟨i, j, rest, hitems⟩ : ∃ i j rest, t.items = i :: j :: rest := by
      cases hitems : t.items with
      | nil =>
        rw [hitems] at hmany
        exact absurd (Nat.zero_le 1) hmany
      | cons i rest =>
        cases rest with
        | nil =>
          rw [hitems] at hmany
          exact absurd (Nat.le_refl 1) hmany
        | cons j rest => exact ⟨i, j, rest, rfl⟩
    have hi : i ∈ t.items := hitems ▸ List.mem_cons_self ..
    have hvalue := SDESInfo_of_mem hi
    have hne : t.SDESInfo i.1 ≠ [] := mem_keys.mp (List.mem_map.mpr ⟨i, hi, rfl⟩)
    have hcome := h i.1
    rw [if_neg hne, hitems, setTexts] at hcome
    rw [hitems, List.map_cons] at hnodup
    rw [SDESInfo_setTexts (List.nodup_cons.mp hnodup).1, SDESInfo_setText, hvalue, nextType,
      if_neg (type_ne_zero _)] at hcome
    exact cString_next (hvalue ▸ t.zero_notMem i.1) (type_ne_zero _) hcome
  · intro hone text
    split_ifs with hempty
    · rw [SDESInfo_setTexts ((hkeys text).mp hempty), hinfo]
    · obtain ⟨i, hi, rfl⟩ := List.mem_map.mp (mem_keys.mpr hempty)
      have hitems : t.items = [i] := by
        cases hitems : t.items with
        | nil =>
          rw [hitems] at hi
          cases hi
        | cons j rest =>
          rw [hitems, List.length_cons] at hone
          obtain rfl := List.eq_nil_of_length_eq_zero (Nat.le_zero.mp (Nat.le_of_succ_le_succ hone))
          rw [hitems, List.mem_singleton] at hi
          rw [hi]
      have hzero := t.zero_notMem i.1
      rw [SDESInfo_of_mem hi] at hzero ⊢
      rw [hitems, setTexts, setTexts, SDESInfo_setText, nextType, if_pos rfl]
      exact cString_last hzero

variable {t : RtcpTransmitter} {tran : RtpTransmitter} {now later : NtpTime} {bye : Option (Option Bytes)}
  {s : RtcpReceiver ρ}

theorem IsEntry.unique {s' : RtcpReceiver ρ} {ssrc : UInt32} {info info' : RtpTranInfo ρ} (h : IsEntry s s' ssrc bye info)
    (h' : IsEntry s s' ssrc bye info') : info = info' := by
  rw [IsEntry] at h h'
  split_ifs at h h'
  · exact List.singleton_inj.mp (List.append_cancel_left (h.symm.trans h'))
  · exact Option.some.inj (h.symm.trans h')

theorem length_items_of_roundTrips (htran : t.tran = some tran)
    (hreason : ∀ reason ∈ bye, ∀ text ∈ reason, text.length < 256) (h : RoundTrips t tran now bye later s) :
    Roomy 0 (compoundSizes t bye) ∧ t.items.length ≤ 1 := by
  obtain ⟨hok, herror⟩ := compound_spec htran now hreason
  obtain ⟨p, hp, -, ret, s', hread, info, hentry, hstored⟩ := h
  by_cases hroom : Roomy 0 (compoundSizes t bye)
  · obtain ⟨p', hp', hdatagram⟩ := hok hroom
    obtain rfl := Except.ok.inj (hp.symm.trans hp')
    obtain ⟨ret', s'', hread', hentry'⟩ := readRTCP_of_compound hdatagram s
    obtain ⟨rfl, rfl⟩ := Prod.mk.inj (Except.ok.inj (hread.symm.trans hread'))
    rw [hentry.unique hentry'] at hstored
    exact ⟨hroom, (stored_iff t rfl).mp hstored⟩
  · obtain ⟨e, he⟩ := herror hroom
    rw [he] at hp
    cases hp

/-- A compound packet comes back with the texts of its sender exactly when no two of them are sent, and behind each
allocation there is room for its clearing. -/
theorem compound_roundTrips_iff (htran : t.tran = some tran) (now : NtpTime)
    (hreason : ∀ reason ∈ bye, ∀ text ∈ reason, text.length < 256) (later : NtpTime) (s : RtcpReceiver ρ) :
    RoundTrips t tran now bye later s ↔ t.items.length ≤ 1 ∧ Roomy 0 (compoundSizes t bye) := by
  refine ⟨fun h => (length_items_of_roundTrips htran hreason h).symm, ?_⟩
  rintro ⟨hone, hroom⟩
  obtain ⟨p, hp, hdatagram⟩ := (compound_spec htran now hreason).1 hroom
  obtain ⟨ret, s', hread, hentry⟩ := readRTCP_of_compound hdatagram s
  exact ⟨p, hp, isValid_of_compound hdatagram, ret, s', hread, _, hentry, (stored_iff t rfl).mpr hone⟩

end

/-- A sender that reports nothing. -/
def sender : RtpTransmitter where
  ssrc := 7
  rtpTime := 160
  packetSent := 1
  payloadSent := 160

/-- It has a name and, if they are not empty, other texts. -/
def transmitter (note : Bytes) (hlen : note.length < 255) (hzero : 0 ∉ note) : RtcpTransmitter where
  tran := some sender
  SDESInfo text := if text = .cname then [97, 98] else if text = .note then note else []
  tranInfoList := []
  length_lt text := by
    split_ifs
    · decide
    · exact hlen
    · decide
  zero_notMem text := by
    split_ifs
    · decide
    · exact hzero
    · exact List.not_mem_nil

theorem compound_roundTrips_name :
    RoundTrips (transmitter [] (by decide) (by decide)) sender ⟨1, 0⟩ (some (some [98, 121, 101])) ⟨2, 0⟩
      ({ tranInfoList := fun _ => none } : RtcpReceiver Unit) :=
  (compound_roundTrips_iff rfl ⟨1, 0⟩ (by
    rintro _ ⟨⟩ _ ⟨⟩
    decide) ⟨2, 0⟩ _).mpr ⟨by decide, by decide⟩

/-- With a note behind it the name comes with the type of the note. -/
theorem not_compound_roundTrips :
    ¬ RoundTrips (transmitter [99] (by decide) (by decide)) sender ⟨1, 0⟩ none ⟨2, 0⟩
      ({ tranInfoList := fun _ => none } : RtcpReceiver Unit) := by
  intro h
  have hone := (length_items_of_roundTrips rfl (by rintro _ ⟨⟩) h).2
  exact absurd hone (by decide)

end Vocal.Rtcp
