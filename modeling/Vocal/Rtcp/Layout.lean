import Vocal.Rtcp.Memory

/-!
# The bytes of a compound packet

What `addSR`, `addSDES` and `addBYE` append to a packet with clear memory, and in which allocations.
-/

namespace Vocal.Rtcp

open Bytes RtcpTransmitter

/-- The zeros that end `n` bytes on a count of 32 bits. -/
def padSize (n : Nat) : Nat := if n % 4 = 0 then 0 else 4 - n % 4

/-- The allocation for them. -/
def padSizes (n : Nat) : List Nat := if n % 4 = 0 then [] else [4 - n % 4]

theorem sum_padSizes (n : Nat) : (padSizes n).sum = padSize n := by
  rw [padSizes, padSize]
  split
  · rfl
  · exact List.sum_singleton

theorem padSize_mod (n : Nat) : (n + padSize n) % 4 = 0 := by
  rw [padSize]
  split <;> omega

/-- The first byte of a header. -/
def headerByte (count : Nat) : UInt8 := .ofNat (RTP_VERSION * 2 ^ 6 + count % 2 ^ 5)

/-- A header with its length, for this many bytes behind it. -/
def packetHeader (count : Nat) (type : UInt8) (n : Nat) : Bytes :=
  [headerByte count, type] ++ ofWord16 (.ofNat ((4 + n) / 4 - 1))

@[simp] theorem length_packetHeader (count : Nat) (type : UInt8) (n : Nat) : (packetHeader count type n).length = 4 := rfl

/-- A packet with its header and padding. -/
def packetBytes (count : Nat) (type : UInt8) (body : Bytes) : Bytes :=
  packetHeader count type (body.length + padSize body.length) ++ (body ++ List.replicate (padSize body.length) 0)

theorem length_packetBytes (count : Nat) (type : UInt8) (body : Bytes) :
    (packetBytes count type body).length = 4 + (body.length + padSize body.length) := by
  rw [packetBytes, List.length_append, List.length_append, length_packetHeader, List.length_replicate]

variable {sizes : List Nat} {body : Bytes} {count : Nat} {type : UInt8}

theorem lays_pad (n head : Nat) {p : RtcpPacket} (hp : p.Blank) (husage : p.getTotalUsage - head = n) :
    (Roomy p.getTotalUsage (padSizes n) → ∃ p', pad head p = .ok p' ∧
        p'.datagram = p.datagram ++ List.replicate (padSize n) 0 ∧ p'.Blank) ∧
      (¬ Roomy p.getTotalUsage (padSizes n) → ∃ e, pad head p = .error e) := by
  rw [pad, husage, padSizes, padSize]
  split_ifs
  · exact ⟨fun _ => ⟨p, rfl, (List.append_nil _).symm, hp⟩, fun h => absurd trivial h⟩
  · exact ⟨(lays_allocData _).ok p hp, (lays_allocData _).error p hp⟩

theorem writeLength_ok {p : RtcpPacket} (hp : p.Blank) {x rest : Bytes} {a b : UInt8}
    (hdatagram : p.datagram = x ++ ([a, b, 0, 0] ++ rest)) :
    ∃ p', writeLength p x.length = .ok p' ∧
      p'.datagram = x ++ ([a, b] ++ ofWord16 (.ofNat ((4 + rest.length) / 4 - 1)) ++ rest) ∧ p'.Blank := by
  have husage : p.getTotalUsage - x.length = 4 + rest.length := by
    rw [← length_datagram, hdatagram, List.length_append, List.length_append, Nat.add_sub_cancel_left]
    rfl
  have hsplit : p.datagram = (x ++ [a, b]) ++ ([0, 0] ++ rest) := by
    rw [hdatagram, List.append_assoc]
    rfl
  obtain ⟨p', hp', hdatagram', hfree, hunused⟩ := RtcpPacket.write_used (x.length + 2)
    (ofWord16 (.ofNat ((4 + rest.length) / 4 - 1))) hsplit
    (by rw [List.length_append]; rfl) rfl
  refine ⟨p', by rw [writeLength, husage]; exact hp', ?_, ?_⟩
  · rw [hdatagram', List.append_assoc, List.append_assoc]
  · rw [RtcpPacket.Blank, hfree, hunused]
    exact hp

theorem lays_framed {f : RtcpPacket → Except Stop RtcpPacket} (hf : Lays f sizes body) (count : Nat) (type : UInt8) :
    Lays (framed count type f) (4 :: (sizes ++ padSizes body.length)) (packetBytes count type body) where
  sum_eq := by rw [List.sum_cons, List.sum_append, hf.sum_eq, sum_padSizes, length_packetBytes]
  ok p hp hroom := by
    obtain ⟨hfirst, hroom⟩ := hroom
    rw [roomy_append, hf.sum_eq] at hroom
    obtain ⟨q, hq, hdatagram₁, hblank₁⟩ := (lays_put (header count type)).ok p hp ⟨hfirst, trivial⟩
    have husage₁ : q.getTotalUsage = p.getTotalUsage + 4 := getTotalUsage_append hdatagram₁
    obtain ⟨r, hr, hdatagram₂, hblank₂⟩ := hf.ok q hblank₁ (husage₁ ▸ hroom.1)
    have husage₂ := getTotalUsage_append hdatagram₂
    have hmod : padSizes (4 + body.length) = padSizes body.length := by
      rw [padSizes, padSizes, Nat.add_mod_left]
    have hzeros : padSize (4 + body.length) = padSize body.length := by rw [padSize, padSize, Nat.add_mod_left]
    obtain ⟨t, ht, hdatagram₃, hblank₃⟩ := (lays_pad (4 + body.length) p.getTotalUsage hblank₂ (by omega)).1
      (by rw [hmod, husage₂, husage₁]; exact hroom.2)
    rw [hzeros] at hdatagram₃
    have hsplit : t.datagram = p.datagram ++ ([headerByte count, type, 0, 0] ++
        (body ++ List.replicate (padSize body.length) 0)) := by
      rw [hdatagram₃, hdatagram₂, hdatagram₁, List.append_assoc, List.append_assoc]
      rfl
    obtain ⟨p', hp', hdatagram', hblank'⟩ := writeLength_ok hblank₃ hsplit
    rw [length_datagram] at hp'
    refine ⟨p', ?_, ?_, hblank'⟩
    · rw [framed, ok_bind hq, ok_bind hr, ok_bind ht]
      exact hp'
    · rw [hdatagram', packetBytes, packetHeader, List.length_append, List.length_replicate]
  error p hp hroom := by
    by_cases hfirst : Roomy p.getTotalUsage [4]
    · obtain ⟨q, hq, hdatagram₁, hblank₁⟩ := (lays_put (header count type)).ok p hp hfirst
      have husage₁ : q.getTotalUsage = p.getTotalUsage + 4 := getTotalUsage_append hdatagram₁
      have hrest : ¬ (Roomy q.getTotalUsage sizes ∧ Roomy (q.getTotalUsage + body.length) (padSizes body.length)) := by
        intro h
        refine hroom ⟨hfirst.1, ?_⟩
        rw [roomy_append, hf.sum_eq]
        exact husage₁ ▸ h
      by_cases hbody : Roomy q.getTotalUsage sizes
      · obtain ⟨r, hr, hdatagram₂, hblank₂⟩ := hf.ok q hblank₁ hbody
        have husage₂ := getTotalUsage_append hdatagram₂
        have hmod : padSizes (4 + body.length) = padSizes body.length := by
          rw [padSizes, padSizes, Nat.add_mod_left]
        obtain ⟨e, he⟩ := (lays_pad (4 + body.length) p.getTotalUsage hblank₂ (by omega)).2
          (by rw [hmod, husage₂]; exact fun h => hrest ⟨hbody, h⟩)
        exact ⟨e, by rw [framed, ok_bind hq, ok_bind hr, error_bind he]⟩
      · obtain ⟨e, he⟩ := hf.error q hblank₁ hbody
        exact ⟨e, by rw [framed, ok_bind hq, error_bind he]⟩
    · obtain ⟨e, he⟩ := (lays_put (header count type)).error p hp hfirst
      exact ⟨e, error_bind he _⟩

/-! ## Source descriptions -/

/-- The bytes of items. -/
def itemBytes : List (SdesText × Bytes) → Bytes
  | [] => []
  | (text, bytes) :: items => text.type :: .ofNat bytes.length :: bytes ++ itemBytes items

def itemSizes : List (SdesText × Bytes) → List Nat
  | [] => []
  | (_, bytes) :: items => [2, bytes.length] ++ itemSizes items

theorem lays_addItems {items : List (SdesText × Bytes)} (hlen : ∀ i ∈ items, i.2.length < 256) :
    Lays (addItems items) (itemSizes items) (itemBytes items) := by
  induction items with
  | nil => exact Lays.nil
  | cons i items ih =>
    exact (lays_addItem i.1.type (hlen i (List.mem_cons_self ..))).bind
      (ih fun j hj => hlen j (List.mem_cons_of_mem _ hj))

/-- The chunk of a source. -/
def chunkBytes (ssrc : UInt32) (items : List (SdesText × Bytes)) : Bytes :=
  ofWord32 ssrc ++ (itemBytes items ++ [0, 0])

def sdesSizes (items : List (SdesText × Bytes)) : List Nat :=
  4 :: ([4] ++ (itemSizes items ++ [2]) ++ padSizes (4 + ((itemBytes items).length + 2)))

theorem lays_sdes (ssrc : UInt32) {items : List (SdesText × Bytes)} (hlen : ∀ i ∈ items, i.2.length < 256) :
    Lays (framed 1 rtcpTypeSDES (addChunk ssrc items)) (sdesSizes items)
      (packetBytes 1 rtcpTypeSDES (chunkBytes ssrc items)) := by
  have h := lays_framed ((lays_put (ofWord32 ssrc)).bind ((lays_addItems hlen).bind (lays_put [0, 0]))) 1 rtcpTypeSDES
  rw [List.length_append, List.length_append, length_ofWord32] at h
  exact h

/-! ## Goodbye -/

def reasonBytes : Option Bytes → Bytes
  | some text => .ofNat text.length :: text
  | none => []

def reasonSizes : Option Bytes → List Nat
  | some text => [1, text.length]
  | none => []

def byeSizes (reason : Option Bytes) : List Nat :=
  4 :: ([4] ++ reasonSizes reason ++ padSizes (4 + (reasonBytes reason).length))

theorem lays_bye (ssrc : UInt32) {reason : Option Bytes} (hlen : ∀ text ∈ reason, text.length < 256) :
    Lays (framed 1 rtcpTypeBYE (addLeaving ssrc reason)) (byeSizes reason)
      (packetBytes 1 rtcpTypeBYE (ofWord32 ssrc ++ reasonBytes reason)) := by
  have h {f : RtcpPacket → Except Stop RtcpPacket} {sizes : List Nat} {bytes : Bytes} (hf : Lays f sizes bytes) :
      Lays (framed 1 rtcpTypeBYE fun p => p.put (ofWord32 ssrc) >>= f)
        (4 :: ([4] ++ sizes ++ padSizes (4 + bytes.length))) (packetBytes 1 rtcpTypeBYE (ofWord32 ssrc ++ bytes)) := by
    have hframed := lays_framed ((lays_put (ofWord32 ssrc)).bind hf) 1 rtcpTypeBYE
    rw [List.length_append, length_ofWord32] at hframed
    exact hframed
  cases reason with
  | none => exact h Lays.nil
  | some text => exact h (lays_addReason (hlen text rfl))

/-! ## Reports -/

/-- The report blocks of a table. -/
def reportBlocks (now : NtpTime) (table : List (RtpTranInfo Reception)) : List Bytes :=
  table.filterMap fun s => (reportable s).map (reportBlock now s)

theorem length_reportBlock (now : NtpTime) (s : RtpTranInfo Reception) (r : Reception) :
    (reportBlock now s r).length = 24 := rfl

theorem length_flatten_reportBlocks (now : NtpTime) (table : List (RtpTranInfo Reception)) :
    (reportBlocks now table).flatten.length = 24 * (reportBlocks now table).length := by
  induction table with
  | nil => rfl
  | cons s table ih =>
    rw [reportBlocks] at ih ⊢
    rw [List.filterMap_cons]
    cases reportable s with
    | none => exact ih
    | some r =>
      rw [Option.map_some, List.flatten_cons, List.length_append, ih, length_reportBlock, List.length_cons]
      omega

/-- The loop over the table, in a packet whose header has counted `count` blocks so far. -/
theorem addReports_spec (now : NtpTime) (table : List (RtpTranInfo Reception)) {x rest : Bytes} {count : Nat}
    {p : RtcpPacket} (hp : p.Blank) (hdatagram : p.datagram = x ++ ([headerByte count] ++ rest)) :
    (Roomy p.getTotalUsage (List.replicate (reportBlocks now table).length 24) →
        ∃ p' table', addReports now x.length count table p = .ok (p', table') ∧
          p'.datagram = x ++ ([headerByte (count + (reportBlocks now table).length)] ++
            (rest ++ (reportBlocks now table).flatten)) ∧ p'.Blank) ∧
      (¬ Roomy p.getTotalUsage (List.replicate (reportBlocks now table).length 24) →
        ∃ e, addReports now x.length count table p = .error e) := by
  induction table generalizing count p rest with
  | nil =>
    refine ⟨fun _ => ⟨p, [], rfl, ?_, hp⟩, fun h => absurd trivial h⟩
    rw [hdatagram]
    simp [reportBlocks]
  | cons s table ih =>
    rw [addReports]
    cases hs : reportable s with
    | none =>
      have hblocks : reportBlocks now (s :: table) = reportBlocks now table := by
        rw [reportBlocks, List.filterMap_cons, hs]
        rfl
      rw [hblocks]
      obtain ⟨hok, herror⟩ := ih hp hdatagram
      refine ⟨fun hroom => ?_, fun hroom => ?_⟩
      · obtain ⟨p', table', hrun, h⟩ := hok hroom
        exact ⟨p', s :: table', ok_bind hrun _, h⟩
      · obtain ⟨e, he⟩ := herror hroom
        exact ⟨e, error_bind he _⟩
    | some r =>
      have hblocks : reportBlocks now (s :: table) = reportBlock now s r :: reportBlocks now table := by
        rw [reportBlocks, List.filterMap_cons, hs]
        rfl
      rw [hblocks, List.length_cons, List.replicate_succ]
      have hput := lays_put (reportBlock now s r)
      rw [length_reportBlock] at hput
      by_cases hfirst : p.getTotalUsage + 2 * 24 ≤ RTCP_PACKETSIZE
      · obtain ⟨q, hq, hdatagram₁, hblank₁⟩ := hput.ok p hp ⟨hfirst, trivial⟩
        have husage₁ : q.getTotalUsage = p.getTotalUsage + 24 := getTotalUsage_append hdatagram₁
        rw [hdatagram, List.append_assoc, List.append_assoc] at hdatagram₁
        obtain ⟨t, ht, hdatagram₂, hfree, hunused⟩ := RtcpPacket.write_used x.length
          ((header (count + 1) 0).take 1) hdatagram₁ rfl rfl
        have hcounted : t.datagram = x ++ ([headerByte (count + 1)] ++ (rest ++ reportBlock now s r)) := hdatagram₂
        have hblank₂ : t.Blank := by
          rw [RtcpPacket.Blank, hfree, hunused]
          exact hblank₁
        have husage₂ : t.getTotalUsage = p.getTotalUsage + 24 := by
          rw [RtcpPacket.getTotalUsage, hunused, ← husage₁]
          rfl
        obtain ⟨hok, herror⟩ := ih hblank₂ hcounted
        rw [husage₂] at hok herror
        refine ⟨fun hroom => ?_, fun hroom => ?_⟩
        · obtain ⟨p', table', hrun, hdatagram', hblank'⟩ := hok hroom.2
          refine ⟨p', (calcLostFrac s r).2 :: table', ?_, ?_, hblank'⟩
          · exact (ok_bind hq _).trans ((ok_bind ht _).trans (ok_bind hrun _))
          · rw [hdatagram', List.flatten_cons, List.append_assoc, Nat.add_right_comm, Nat.add_assoc]
        · obtain ⟨e, he⟩ := herror fun hrest => hroom ⟨hfirst, hrest⟩
          exact ⟨e, (ok_bind hq _).trans ((ok_bind ht _).trans (error_bind he _))⟩
      · refine ⟨fun hroom => absurd hroom.1 hfirst, fun _ => ?_⟩
        obtain ⟨e, he⟩ := hput.error p hp fun hroom => hfirst hroom.1
        exact ⟨e, error_bind he _⟩

/-- A sender report. -/
def reportBytes (tran : RtpTransmitter) (now : NtpTime) (table : List (RtpTranInfo Reception)) : Bytes :=
  packetHeader (reportBlocks now table).length rtcpTypeSR (24 + 24 * (reportBlocks now table).length) ++
    (senderInfo tran now ++ (reportBlocks now table).flatten)

theorem length_reportBytes (tran : RtpTransmitter) (now : NtpTime) (table : List (RtpTranInfo Reception)) :
    (reportBytes tran now table).length = 28 + 24 * (reportBlocks now table).length := by
  have hinfo : (senderInfo tran now).length = 24 := rfl
  rw [reportBytes, List.length_append, List.length_append, length_packetHeader, hinfo, length_flatten_reportBlocks]
  omega

def reportSizes (blocks : Nat) : List Nat := [4, 24] ++ List.replicate blocks 24

theorem addSR_spec {t : RtcpTransmitter} {tran : RtpTransmitter} (htran : t.tran = some tran) (now : NtpTime)
    {p : RtcpPacket} (hp : p.Blank) :
    (Roomy p.getTotalUsage (reportSizes (reportBlocks now t.tranInfoList).length) →
        ∃ p' table', t.addSR now p = .ok (p', table') ∧
          p'.datagram = p.datagram ++ reportBytes tran now t.tranInfoList ∧ p'.Blank) ∧
      (¬ Roomy p.getTotalUsage (reportSizes (reportBlocks now t.tranInfoList).length) →
        ∃ e, t.addSR now p = .error e) := by
  have hinfo := (lays_put (header 0 rtcpTypeSR)).bind (lays_put (senderInfo tran now))
  have hstart : t.addSR now p = (do
      let q ← (do
        let p ← p.put (header 0 rtcpTypeSR)
        p.put (senderInfo tran now))
      let r ← addReports now p.getTotalUsage 0 t.tranInfoList q
      if (r.1.getTotalUsage - p.getTotalUsage) % 4 = 0 then
        let p' ← writeLength r.1 p.getTotalUsage
        return (p', r.2)
      else .error .assertion) := by
    rw [addSR, htran, bind_assoc]
    rfl
  rw [hstart, reportSizes, roomy_append]
  by_cases hfirst : Roomy p.getTotalUsage [4, 24]
  · obtain ⟨q, hq, hdatagram₁, hblank₁⟩ := hinfo.ok p hp hfirst
    have husage₁ : q.getTotalUsage = p.getTotalUsage + 28 := getTotalUsage_append hdatagram₁
    have hsplit : q.datagram = p.datagram ++ ([headerByte 0] ++ ([rtcpTypeSR, 0, 0] ++ senderInfo tran now)) := hdatagram₁
    obtain ⟨hok, herror⟩ := addReports_spec now t.tranInfoList hblank₁ hsplit
    rw [husage₁, length_datagram] at hok herror
    refine ⟨fun hroom => ?_, fun hroom => ?_⟩
    · obtain ⟨r, table', hrun, hdatagram₂, hblank₂⟩ := hok hroom.2
      rw [Nat.zero_add] at hdatagram₂
      have hblocks := length_flatten_reportBlocks now t.tranInfoList
      have hsplit' : r.datagram = p.datagram ++ ([headerByte (reportBlocks now t.tranInfoList).length, rtcpTypeSR, 0, 0]
          ++ (senderInfo tran now ++ (reportBlocks now t.tranInfoList).flatten)) := by
        rw [hdatagram₂]
        simp
      have husage₂ : r.getTotalUsage = p.getTotalUsage + (4 + (24 + 24 * (reportBlocks now t.tranInfoList).length)) := by
        rw [getTotalUsage_append hsplit', List.length_append, List.length_append, hblocks]
        rfl
      obtain ⟨p', hp', hdatagram', hblank'⟩ := writeLength_ok hblank₂ hsplit'
      rw [List.length_append, hblocks] at hdatagram'
      rw [length_datagram] at hp'
      refine ⟨p', table', ?_, hdatagram', hblank'⟩
      rw [ok_bind hq, ok_bind hrun]
      dsimp only
      rw [if_pos (by omega), ok_bind hp']
      rfl
    · obtain ⟨e, he⟩ := herror fun hrest => hroom ⟨hfirst, hrest⟩
      exact ⟨e, (ok_bind hq _).trans (error_bind he _)⟩
  · refine ⟨fun hroom => absurd hroom.1 hfirst, fun _ => ?_⟩
    obtain ⟨e, he⟩ := hinfo.error p hp hfirst
    exact ⟨e, error_bind he _⟩

/-! ## The compound -/

/-- The BYE packet of a source, if it leaves. -/
def byeBytes (ssrc : UInt32) : Option (Option Bytes) → Bytes
  | some reason => packetBytes 1 rtcpTypeBYE (ofWord32 ssrc ++ reasonBytes reason)
  | none => []

def compoundBytes (t : RtcpTransmitter) (tran : RtpTransmitter) (now : NtpTime) (bye : Option (Option Bytes)) : Bytes :=
  reportBytes tran now t.tranInfoList ++
    (packetBytes 1 rtcpTypeSDES (chunkBytes tran.ssrc t.items) ++ byeBytes tran.ssrc bye)

/-- The allocations of a compound packet in their order. -/
def compoundSizes (t : RtcpTransmitter) (bye : Option (Option Bytes)) : List Nat :=
  reportSizes (t.tranInfoList.filterMap reportable).length ++ (sdesSizes t.items ++ bye.elim [] byeSizes)

theorem length_items_lt (t : RtcpTransmitter) : ∀ i ∈ t.items, i.2.length < 256 := by
  intro i hi
  obtain ⟨text, -, rfl⟩ := List.mem_map.mp hi
  exact (t.length_lt text).trans (by decide)

theorem length_reportBlocks (now : NtpTime) (table : List (RtpTranInfo Reception)) :
    (reportBlocks now table).length = (table.filterMap reportable).length := by
  induction table with
  | nil => rfl
  | cons s table ih =>
    rw [reportBlocks] at ih ⊢
    rw [List.filterMap_cons, List.filterMap_cons]
    cases reportable s with
    | none => exact ih
    | some r =>
      rw [Option.map_some, List.length_cons, List.length_cons, ih]

theorem blank_empty : RtcpPacket.empty.Blank := by
  rw [RtcpPacket.Blank, RtcpPacket.free]
  rfl

/-- A compound packet has these bytes, and is there exactly when every allocation has its room. -/
theorem compound_spec {t : RtcpTransmitter} {tran : RtpTransmitter} (htran : t.tran = some tran) (now : NtpTime)
    {bye : Option (Option Bytes)} (hreason : ∀ reason ∈ bye, ∀ text ∈ reason, text.length < 256) :
    (Roomy 0 (compoundSizes t bye) → ∃ p, t.compound now bye = .ok p ∧ p.datagram = compoundBytes t tran now bye) ∧
      (¬ Roomy 0 (compoundSizes t bye) → ∃ e, t.compound now bye = .error e) := by
  have hsdes : Lays t.addSDES (sdesSizes t.items) (packetBytes 1 rtcpTypeSDES (chunkBytes tran.ssrc t.items)) := by
    have heq : t.addSDES = framed 1 rtcpTypeSDES (addChunk tran.ssrc t.items) := by
      funext p
      rw [addSDES, htran]
    rw [heq]
    exact lays_sdes tran.ssrc (length_items_lt t)
  have hrest : Lays (fun p => t.addSDES p >>= t.addGoodbye bye) (sdesSizes t.items ++ bye.elim [] byeSizes)
      (packetBytes 1 rtcpTypeSDES (chunkBytes tran.ssrc t.items) ++ byeBytes tran.ssrc bye) := by
    cases bye with
    | none => exact hsdes.bind Lays.nil
    | some reason =>
      have heq : t.addGoodbye (some reason) = framed 1 rtcpTypeBYE (addLeaving tran.ssrc reason) := by
        funext p
        rw [addGoodbye, addBYE, htran]
      have hbye := lays_bye tran.ssrc (hreason reason rfl)
      rw [← heq] at hbye
      exact hsdes.bind hbye
  have hreports := addSR_spec htran now blank_empty
  have hzero : RtcpPacket.empty.getTotalUsage = 0 := rfl
  rw [hzero, length_reportBlocks] at hreports
  have hsum : (reportSizes (t.tranInfoList.filterMap reportable).length).sum =
      (reportBytes tran now t.tranInfoList).length := by
    rw [reportSizes, List.sum_append, List.sum_replicate_nat, length_reportBytes, length_reportBlocks, Nat.mul_comm]
    rfl
  rw [compoundSizes, roomy_append, hsum]
  by_cases hfirst : Roomy 0 (reportSizes (t.tranInfoList.filterMap reportable).length)
  · obtain ⟨q, table', hq, hdatagram, hblank⟩ := hreports.1 hfirst
    have husage : q.getTotalUsage = 0 + (reportBytes tran now t.tranInfoList).length := getTotalUsage_append hdatagram
    refine ⟨fun hroom => ?_, fun hroom => ?_⟩
    · obtain ⟨p, hp, hdatagram', -⟩ := hrest.ok q hblank (husage ▸ hroom.2)
      exact ⟨p, (ok_bind hq _).trans hp, by rw [hdatagram', hdatagram]; rfl⟩
    · obtain ⟨e, he⟩ := hrest.error q hblank fun h => hroom ⟨hfirst, husage ▸ h⟩
      exact ⟨e, (ok_bind hq _).trans he⟩
  · refine ⟨fun hroom => absurd hroom.1 hfirst, fun _ => ?_⟩
    obtain ⟨e, he⟩ := hreports.2 hfirst
    exact ⟨e, error_bind he _⟩

end Vocal.Rtcp
