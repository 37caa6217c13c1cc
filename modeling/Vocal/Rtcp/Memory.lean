import Mathlib.Algebra.Order.BigOperators.Group.List
import Mathlib.Algebra.Order.Ring.Nat
import Vocal.Rtcp.Robust
import Vocal.Rtcp.Transmitter

/-!
# What the transmitter lays into a packet

The memory of a packet is what is in use and what is free. `Lays f sizes bytes` says that `f` appends `bytes` to a packet
whose free memory is clear, in allocations of these sizes, and has a result exactly if there is room behind each of them
for its clearing.
-/

namespace Vocal.Rtcp

open Bytes

namespace RtcpPacket

variable {p p' : RtcpPacket} {x y z bytes : Bytes} {off s : Nat}

/-- The memory that is not in use. -/
def free (p : RtcpPacket) : Bytes := p.packetData.1.drop p.getTotalUsage

/-- All of it is zero. -/
def Blank (p : RtcpPacket) : Prop := p.free = List.replicate p.unusedSize 0

theorem getTotalUsage_add (p : RtcpPacket) : p.getTotalUsage + p.unusedSize = RTCP_PACKETSIZE :=
  Nat.sub_add_cancel p.unused_le

theorem write_ok (p : RtcpPacket) (off : Nat) (bytes : Bytes) (h : off + bytes.length ≤ RTCP_PACKETSIZE) :
    ∃ data, Octets.store p.packetData off bytes = some data ∧ p.write off bytes = .ok { p with packetData := data } := by
  obtain ⟨data, hdata⟩ : ∃ data, Octets.store p.packetData off bytes = some data := Octets.exists_store h
  exact ⟨data, hdata, by rw [write, hdata]⟩

theorem write_overrun (h : RTCP_PACKETSIZE < off + bytes.length) : p.write off bytes = .error .overrun := by
  rw [write, Octets.store_eq_none_iff.mpr h]

theorem write_used (off : Nat) (bytes : Bytes) (hdatagram : p.datagram = x ++ (y ++ z)) (hoff : x.length = off)
    (hlen : y.length = bytes.length) :
    ∃ p', p.write off bytes = .ok p' ∧ p'.datagram = x ++ (bytes ++ z) ∧ p'.free = p.free ∧
      p'.unusedSize = p.unusedSize := by
  have hused := length_datagram p
  have htotal := p.getTotalUsage_add
  rw [hdatagram, List.length_append, List.length_append] at hused
  obtain ⟨data, hdata, hwrite⟩ := write_ok p off bytes (by omega)
  refine ⟨_, hwrite, ?_, ?_, rfl⟩
  · have husage : p.getTotalUsage = off + (y.length + z.length) := by omega
    have htake : p.packetData.1.take (off + (y.length + z.length)) = x ++ (y ++ z) := by
      rw [← husage]
      exact hdatagram
    show data.1.take p.getTotalUsage = _
    rw [husage]
    exact Octets.take_store_middle hdata htake hoff hlen
  · have hend : off + bytes.length ≤ p.getTotalUsage := by omega
    exact Octets.drop_store hdata hend

theorem write_free (p : RtcpPacket) (bytes : Bytes) (h : bytes.length ≤ p.unusedSize) :
    ∃ p', p.write p.getTotalUsage bytes = .ok p' ∧ p'.datagram = p.datagram ∧
      p'.free = bytes ++ p.free.drop bytes.length ∧ p'.unusedSize = p.unusedSize := by
  have htotal := p.getTotalUsage_add
  obtain ⟨data, hdata, hwrite⟩ := write_ok p p.getTotalUsage bytes (by omega)
  refine ⟨_, hwrite, Octets.take_store hdata (Nat.le_refl _), ?_, rfl⟩
  have hsplit := List.take_append_drop bytes.length (data.1.drop p.getTotalUsage)
  have hfirst : (data.1.drop p.getTotalUsage).take bytes.length = bytes := by
    have hend := congrArg (List.drop p.getTotalUsage) (Octets.take_store_end hdata)
    rw [List.drop_take, Nat.add_sub_cancel_left] at hend
    rw [hend, List.drop_left' (by rw [List.length_take, p.packetData.2]; omega)]
  show data.1.drop p.getTotalUsage = _
  rw [← hsplit, hfirst, List.drop_drop, Octets.drop_store hdata (Nat.le_refl _), free, List.drop_drop]

theorem allocData_ok (hfree : p.free = bytes ++ List.replicate (p.unusedSize - bytes.length) 0)
    (hroom : p.getTotalUsage + 2 * bytes.length ≤ RTCP_PACKETSIZE) :
    ∃ p', p.allocData bytes.length = .ok p' ∧ p'.datagram = p.datagram ++ bytes ∧ p'.Blank := by
  have htotal := p.getTotalUsage_add
  have hfits : bytes.length ≤ p.unusedSize := by omega
  rw [allocData, if_pos hfits]
  obtain ⟨data, hdata, hwrite⟩ := write_ok
    { p with unusedSize := p.unusedSize - bytes.length, unused_le := Nat.le_trans (Nat.sub_le ..) p.unused_le }
    (p.getTotalUsage + bytes.length) (List.replicate bytes.length 0) (by rw [List.length_replicate]; omega)
  refine ⟨_, hwrite, ?_, ?_⟩
  · show data.1.take (RTCP_PACKETSIZE - (p.unusedSize - bytes.length)) = _
    have husage : RTCP_PACKETSIZE - (p.unusedSize - bytes.length) = p.getTotalUsage + bytes.length := by omega
    rw [husage, Octets.take_store hdata (Nat.le_refl _), List.take_add, datagram]
    congr 1
    show p.free.take bytes.length = bytes
    rw [hfree, List.take_left]
  · have hrest : p.free.drop bytes.length = List.replicate (p.unusedSize - bytes.length) 0 := by
      rw [hfree, List.drop_left]
    show data.1.drop (RTCP_PACKETSIZE - (p.unusedSize - bytes.length)) = List.replicate (p.unusedSize - bytes.length) 0
    have husage : RTCP_PACKETSIZE - (p.unusedSize - bytes.length) = p.getTotalUsage + bytes.length := by omega
    have hsplit := List.take_append_drop bytes.length (data.1.drop (p.getTotalUsage + bytes.length))
    have hend := congrArg (List.drop (p.getTotalUsage + bytes.length)) (Octets.take_store_end hdata)
    rw [List.drop_take, List.length_replicate, Nat.add_sub_cancel_left] at hend
    have hbehind : data.1.drop (p.getTotalUsage + bytes.length + bytes.length) =
        (p.free.drop bytes.length).drop bytes.length := by
      rw [Octets.drop_store hdata (by rw [List.length_replicate]), RtcpPacket.free, List.drop_drop, List.drop_drop,
        Nat.add_assoc]
    rw [husage, ← hsplit, hend, List.drop_left' (by rw [List.length_take, p.packetData.2]; omega), List.drop_drop,
      hbehind]
    rw [hrest, List.drop_replicate, ← List.replicate_add]
    congr 1
    omega

theorem allocData_error (hroom : RTCP_PACKETSIZE < p.getTotalUsage + 2 * s) : ∃ e, p.allocData s = .error e := by
  rw [allocData]
  split
  · exact ⟨_, write_overrun (by rw [List.length_replicate]; omega)⟩
  · exact ⟨_, rfl⟩

end RtcpPacket

/-! ## Layouts -/

/-- Behind every allocation there is room for its clearing. -/
def Roomy (used : Nat) : List Nat → Prop
  | [] => True
  | s :: sizes => used + 2 * s ≤ RTCP_PACKETSIZE ∧ Roomy (used + s) sizes

instance decidableRoomy (used : Nat) : (sizes : List Nat) → Decidable (Roomy used sizes)
  | [] => isTrue trivial
  | s :: sizes =>
    have := decidableRoomy (used + s) sizes
    inferInstanceAs (Decidable (_ ∧ _))

theorem roomy_append {used : Nat} {sizes sizes' : List Nat} :
    Roomy used (sizes ++ sizes') ↔ Roomy used sizes ∧ Roomy (used + sizes.sum) sizes' := by
  induction sizes generalizing used with
  | nil => exact (and_iff_right trivial).symm
  | cons s sizes ih =>
    rw [List.cons_append, Roomy, Roomy, ih, List.sum_cons, Nat.add_assoc, and_assoc]

/-- It appends these bytes in allocations of these sizes, or has no result where one of them has no room. -/
structure Lays (f : RtcpPacket → Except Stop RtcpPacket) (sizes : List Nat) (bytes : Bytes) : Prop where
  sum_eq : sizes.sum = bytes.length
  ok : ∀ p : RtcpPacket, p.Blank → Roomy p.getTotalUsage sizes →
    ∃ p', f p = .ok p' ∧ p'.datagram = p.datagram ++ bytes ∧ p'.Blank
  error : ∀ p : RtcpPacket, p.Blank → ¬ Roomy p.getTotalUsage sizes → ∃ e, f p = .error e

theorem getTotalUsage_append {p p' : RtcpPacket} {bytes : Bytes} (h : p'.datagram = p.datagram ++ bytes) :
    p'.getTotalUsage = p.getTotalUsage + bytes.length := by
  rw [← length_datagram, ← length_datagram, h, List.length_append]

theorem error_bind {α β : Type} {x : Except Stop α} {e : Stop} (h : x = .error e) (f : α → Except Stop β) :
    (x >>= f) = .error e := by
  rw [h]
  rfl

namespace Lays

variable {f g : RtcpPacket → Except Stop RtcpPacket} {sizes sizes' : List Nat} {bytes bytes' : Bytes}

theorem nil : Lays .ok [] [] :=
  ⟨rfl, fun p hp _ => ⟨p, rfl, (List.append_nil _).symm, hp⟩, fun _ _ h => absurd trivial h⟩

theorem bind (hf : Lays f sizes bytes) (hg : Lays g sizes' bytes') :
    Lays (fun p => f p >>= g) (sizes ++ sizes') (bytes ++ bytes') where
  sum_eq := by rw [List.sum_append, List.length_append, hf.sum_eq, hg.sum_eq]
  ok p hp hroom := by
    rw [roomy_append, hf.sum_eq] at hroom
    obtain ⟨q, hq, hdatagram, hblank⟩ := hf.ok p hp hroom.1
    obtain ⟨r, hr, hdatagram', hblank'⟩ := hg.ok q hblank (getTotalUsage_append hdatagram ▸ hroom.2)
    exact ⟨r, (ok_bind hq g).trans hr, by rw [hdatagram', hdatagram, List.append_assoc], hblank'⟩
  error p hp hroom := by
    rw [roomy_append, hf.sum_eq] at hroom
    by_cases hfirst : Roomy p.getTotalUsage sizes
    · obtain ⟨q, hq, hdatagram, hblank⟩ := hf.ok p hp hfirst
      obtain ⟨e, he⟩ := hg.error q hblank (getTotalUsage_append hdatagram ▸ fun hsecond => hroom ⟨hfirst, hsecond⟩)
      exact ⟨e, (ok_bind hq g).trans he⟩
    · obtain ⟨e, he⟩ := hf.error p hp hfirst
      exact ⟨e, error_bind he g⟩

end Lays

theorem lays_allocData (s : Nat) : Lays (·.allocData s) [s] (List.replicate s 0) where
  sum_eq := by rw [List.sum_singleton, List.length_replicate]
  ok p hp hroom := by
    have htotal := p.getTotalUsage_add
    have hfree : p.free = List.replicate s 0 ++ List.replicate (p.unusedSize - (List.replicate s (0 : UInt8)).length) 0 := by
      rw [hp, ← List.replicate_add, List.length_replicate]
      congr 1
      have := hroom.1
      omega
    have h := RtcpPacket.allocData_ok hfree (by rw [List.length_replicate]; exact hroom.1)
    rwa [List.length_replicate] at h
  error p _ hroom := RtcpPacket.allocData_error (Nat.lt_of_not_le fun hle => hroom ⟨hle, trivial⟩)

theorem lays_put (bytes : Bytes) : Lays (·.put bytes) [bytes.length] bytes where
  sum_eq := List.sum_singleton
  ok p hp hroom := by
    obtain ⟨q, hq, hdatagram, hblank⟩ := (lays_allocData bytes.length).ok p hp hroom
    have hsplit : q.datagram = p.datagram ++ (List.replicate bytes.length 0 ++ []) := by
      rw [hdatagram, List.append_nil]
    obtain ⟨r, hr, hdatagram', hfree, hunused⟩ :=
      RtcpPacket.write_used p.getTotalUsage bytes hsplit (length_datagram p) List.length_replicate
    refine ⟨r, (ok_bind hq _).trans hr, by rw [hdatagram', List.append_nil], ?_⟩
    rw [RtcpPacket.Blank, hfree, hunused]
    exact hblank
  error p hp hroom := by
    obtain ⟨e, he⟩ := (lays_allocData bytes.length).error p hp hroom
    exact ⟨e, error_bind he _⟩

namespace RtcpTransmitter

theorem toNat_length {text : Bytes} (h : text.length < 256) : (UInt8.ofNat text.length).toNat = text.length := by
  rw [UInt8.toNat_ofNat', Nat.mod_eq_of_lt h]

theorem allocData_text {p : RtcpPacket} {text : Bytes} (hlen : text.length < 256)
    (hfree : p.free = text ++ List.replicate (p.unusedSize - text.length) 0) :
    (p.getTotalUsage + 2 * text.length ≤ RTCP_PACKETSIZE →
        ∃ p', p.allocData (UInt8.ofNat text.length).toNat = .ok p' ∧ p'.datagram = p.datagram ++ text ∧ p'.Blank) ∧
      (¬ p.getTotalUsage + 2 * text.length ≤ RTCP_PACKETSIZE →
        ∃ e, p.allocData (UInt8.ofNat text.length).toNat = .error e) := by
  rw [toNat_length hlen]
  exact ⟨RtcpPacket.allocData_ok hfree, fun h => RtcpPacket.allocData_error (Nat.lt_of_not_le h)⟩

theorem lays_addItem (type : UInt8) {text : Bytes} (hlen : text.length < 256) :
    Lays (addItem type text) [2, text.length] (type :: .ofNat text.length :: text) := by
  -- Behind the two bytes of the item the text is written, and then the two bytes.
  have hwritten {p q : RtcpPacket} (hq : p.allocData 2 = .ok q) (hdatagram : q.datagram = p.datagram ++ [0, 0])
      (hblank : q.Blank) (hfits : text.length ≤ q.unusedSize) :
      ∃ r : RtcpPacket, addItem type text p = r.allocData (UInt8.ofNat text.length).toNat ∧
        r.datagram = p.datagram ++ [type, .ofNat text.length] ∧
        r.free = text ++ List.replicate (r.unusedSize - text.length) 0 ∧ r.getTotalUsage = p.getTotalUsage + 2 := by
    have husage : q.getTotalUsage = p.getTotalUsage + 2 := getTotalUsage_append hdatagram
    obtain ⟨r, hr, hdatagram₁, hfree₁, hunused₁⟩ := RtcpPacket.write_free _ _ hfits
    have hsplit : r.datagram = (p.datagram ++ [0]) ++ ([0] ++ []) := by
      rw [hdatagram₁, hdatagram, List.append_assoc]
      rfl
    obtain ⟨t, ht, hdatagram₂, hfree₂, hunused₂⟩ := RtcpPacket.write_used (p.getTotalUsage + 1)
      [UInt8.ofNat text.length] hsplit (by rw [List.length_append, length_datagram]; rfl) rfl
    have hsplit' : t.datagram = p.datagram ++ ([0] ++ [UInt8.ofNat text.length]) := by
      rw [hdatagram₂, List.append_assoc]
      rfl
    obtain ⟨u, hu, hdatagram₃, hfree₃, hunused₃⟩ := RtcpPacket.write_used p.getTotalUsage [type]
      hsplit' (length_datagram p) rfl
    refine ⟨u, ?_, hdatagram₃, ?_, getTotalUsage_append hdatagram₃⟩
    · rw [husage] at hr
      rw [addItem, ok_bind hq, ok_bind hr, ok_bind ht, ok_bind hu]
    · rw [hfree₃, hfree₂, hfree₁, hblank, List.drop_replicate, hunused₃, hunused₂, hunused₁]
  constructor
  · rw [List.sum_cons, List.sum_singleton, List.length_cons, List.length_cons, Nat.add_comm]
  · rintro p hp ⟨hfirst, hroom, -⟩
    obtain ⟨q, hq, hdatagram, hblank⟩ := (lays_allocData 2).ok p hp ⟨hfirst, trivial⟩
    have htotal := q.getTotalUsage_add
    have husage : q.getTotalUsage = p.getTotalUsage + 2 := getTotalUsage_append hdatagram
    obtain ⟨r, hrun, hdatagram', hfree, husage'⟩ := hwritten hq hdatagram hblank (by omega)
    obtain ⟨p', hp', hdatagram'', hblank'⟩ := (allocData_text hlen hfree).1 (husage' ▸ hroom)
    exact ⟨p', hrun.trans hp', by rw [hdatagram'', hdatagram', List.append_assoc]; rfl, hblank'⟩
  · intro p hp hroom
    by_cases hfirst : Roomy p.getTotalUsage [2]
    · obtain ⟨q, hq, hdatagram, hblank⟩ := (lays_allocData 2).ok p hp hfirst
      have htotal := q.getTotalUsage_add
      have husage : q.getTotalUsage = p.getTotalUsage + 2 := getTotalUsage_append hdatagram
      have hno : ¬ p.getTotalUsage + 2 + 2 * text.length ≤ RTCP_PACKETSIZE :=
        fun hle => hroom ⟨hfirst.1, hle, trivial⟩
      by_cases hfits : text.length ≤ q.unusedSize
      · obtain ⟨r, hrun, -, hfree, husage'⟩ := hwritten hq hdatagram hblank hfits
        obtain ⟨e, he⟩ := (allocData_text hlen hfree).2 (husage' ▸ hno)
        exact ⟨e, hrun.trans he⟩
      · have hover : q.write (p.getTotalUsage + 2) text = .error .overrun := RtcpPacket.write_overrun (by omega)
        exact ⟨_, (ok_bind hq _).trans (error_bind hover _)⟩
    · obtain ⟨e, he⟩ := (lays_allocData 2).error p hp hfirst
      exact ⟨e, error_bind he _⟩

theorem lays_addReason {text : Bytes} (hlen : text.length < 256) :
    Lays (addReason text) [1, text.length] (.ofNat text.length :: text) := by
  have htake : text.take (UInt8.ofNat text.length).toNat = text := by rw [toNat_length hlen, List.take_length]
  have hwritten {p q : RtcpPacket} (hq : p.allocData 1 = .ok q) (hdatagram : q.datagram = p.datagram ++ [0]) :
      ∃ r : RtcpPacket, (addReason text p = do
          let r ← r.write r.getTotalUsage text
          r.allocData (UInt8.ofNat text.length).toNat) ∧
        r.datagram = p.datagram ++ [.ofNat text.length] ∧ r.free = q.free ∧ r.unusedSize = q.unusedSize := by
    have hsplit : q.datagram = p.datagram ++ ([0] ++ []) := hdatagram
    obtain ⟨r, hr, hdatagram', hfree, hunused⟩ := RtcpPacket.write_used p.getTotalUsage
      [UInt8.ofNat text.length] hsplit (length_datagram p) rfl
    have husage : r.getTotalUsage = p.getTotalUsage + 1 := getTotalUsage_append hdatagram'
    exact ⟨r, by rw [addReason, ok_bind hq, ok_bind hr, htake, husage], hdatagram', hfree, hunused⟩
  constructor
  · rw [List.sum_cons, List.sum_singleton, List.length_cons, Nat.add_comm]
  · rintro p hp ⟨hfirst, hroom, -⟩
    obtain ⟨q, hq, hdatagram, hblank⟩ := (lays_allocData 1).ok p hp ⟨hfirst, trivial⟩
    obtain ⟨r, hrun, hdatagram', hfree, hunused⟩ := hwritten hq hdatagram
    have htotal := r.getTotalUsage_add
    have husage : r.getTotalUsage = p.getTotalUsage + 1 := getTotalUsage_append hdatagram'
    obtain ⟨t, ht, hdatagram'', hfree', hunused'⟩ := RtcpPacket.write_free r text (by omega)
    rw [hfree, hblank, List.drop_replicate, ← hunused, ← hunused'] at hfree'
    have husage' : t.getTotalUsage = p.getTotalUsage + 1 := by rw [RtcpPacket.getTotalUsage, hunused', ← husage]; rfl
    obtain ⟨p', hp', hlast, hblank'⟩ := (allocData_text hlen hfree').1 (husage' ▸ hroom)
    refine ⟨p', hrun.trans ((ok_bind ht _).trans hp'), ?_, hblank'⟩
    rw [hlast, hdatagram'', hdatagram', List.append_assoc]
    rfl
  · intro p hp hroom
    by_cases hfirst : Roomy p.getTotalUsage [1]
    · obtain ⟨q, hq, hdatagram, hblank⟩ := (lays_allocData 1).ok p hp hfirst
      obtain ⟨r, hrun, hdatagram', hfree, hunused⟩ := hwritten hq hdatagram
      have htotal := r.getTotalUsage_add
      have husage : r.getTotalUsage = p.getTotalUsage + 1 := getTotalUsage_append hdatagram'
      have hno : ¬ p.getTotalUsage + 1 + 2 * text.length ≤ RTCP_PACKETSIZE :=
        fun hle => hroom ⟨hfirst.1, hle, trivial⟩
      by_cases hfits : text.length ≤ r.unusedSize
      · obtain ⟨t, ht, -, hfree', hunused'⟩ := RtcpPacket.write_free _ _ hfits
        rw [hfree, hblank, List.drop_replicate, ← hunused, ← hunused'] at hfree'
        have husage' : t.getTotalUsage = p.getTotalUsage + 1 := by
          rw [RtcpPacket.getTotalUsage, hunused', ← husage]
          rfl
        obtain ⟨e, he⟩ := (allocData_text hlen hfree').2 (husage' ▸ hno)
        exact ⟨e, hrun.trans ((ok_bind ht _).trans he)⟩
      · exact ⟨_, hrun.trans (error_bind (RtcpPacket.write_overrun (by omega)) _)⟩
    · obtain ⟨e, he⟩ := (lays_allocData 1).error p hp hfirst
      exact ⟨e, error_bind he _⟩

end RtcpTransmitter

end Vocal.Rtcp
