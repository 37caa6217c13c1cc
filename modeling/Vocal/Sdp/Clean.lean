import Vocal.Sdp.Description
import Vocal.Sdp.Decode
import Vocal.Sip.RawHeader.Lines

/-!
# The lines of a text

A description is taken off its text line by line, as no line holds an end of line.
-/

namespace Vocal.Sdp

open Sip (Data CRLF)

/-- A text without the end of a line. -/
structure Clean (x : Data) : Prop where
  cr : '\r' ∉ x
  lf : '\n' ∉ x

theorem clean_nil : Clean [] := ⟨List.not_mem_nil, List.not_mem_nil⟩

theorem Clean.append {x y : Data} (hx : Clean x) (hy : Clean y) : Clean (x ++ y) :=
  ⟨fun h => (List.mem_append.mp h).elim hx.cr hy.cr, fun h => (List.mem_append.mp h).elim hx.lf hy.lf⟩

theorem Clean.cons {c : Char} {x : Data} (hc : c ≠ '\r' ∧ c ≠ '\n') (hx : Clean x) : Clean (c :: x) :=
  ⟨fun h => (List.mem_cons.mp h).elim (fun h => hc.1 h.symm) hx.cr,
    fun h => (List.mem_cons.mp h).elim (fun h => hc.2 h.symm) hx.lf⟩

theorem clean_flatMap {c : Char} (hc : c ≠ '\r' ∧ c ≠ '\n') {items : List Data} (h : ∀ y ∈ items, Clean y) :
    Clean (items.flatMap (c :: ·)) := by
  induction items with
  | nil => exact clean_nil
  | cons y items ih =>
    obtain ⟨hy, hitems⟩ := List.forall_mem_cons.mp h
    rw [List.flatMap_cons]
    exact .append (.cons hc hy) (ih hitems)

theorem Text.clean (t : Text) : Clean t.chars := ⟨t.cr, t.lf⟩

theorem Number.clean (n : Number) : Clean n.chars :=
  ⟨fun h => absurd (n.isDigit _ h) (by decide), fun h => absurd (n.isDigit _ h) (by decide)⟩

theorem clean_line {letter : Char} (hletter : letter ≠ '\r' ∧ letter ≠ '\n') {x : Data} (hx : Clean x) :
    Clean (line letter x) := .cons hletter (.cons (by decide) hx)

/-! ### The kinds of lines -/

theorem clean_addrType (ip6 : Bool) : Clean (addrType ip6) := by
  cases ip6
  · exact ⟨by decide, by decide⟩
  · exact ⟨by decide, by decide⟩

theorem OriginLine.clean (o : OriginLine) : Clean o.text := by
  refine .append o.username.clean (clean_flatMap (by decide) ?_)
  simp only [List.forall_mem_cons]
  exact ⟨o.sessionId.clean, o.version.clean, ⟨by decide, by decide⟩, clean_addrType _, o.address.clean, by simp⟩

theorem ConnectionLine.clean (c : ConnectionLine) : Clean c.text := by
  have hmulticast : Clean c.multicastText := by
    rw [multicastText]
    rcases c.multicast with _ | ⟨ttl, _ | numAddr⟩
    · exact clean_nil
    · exact .cons (by decide) ttl.clean
    · exact .append (.cons (by decide) ttl.clean) (.cons (by decide) numAddr.clean)
  exact .append (.append (.append ⟨by decide, by decide⟩ (.cons (by decide) (clean_addrType _)))
    (.cons (by decide) c.address.clean)) hmulticast

theorem BandwidthLine.clean (b : BandwidthLine) : Clean b.text := by
  refine .append ?_ (.cons (by decide) b.value.clean)
  cases b.modifier with
  | AS => exact ⟨by decide, by decide⟩
  | CT => exact ⟨by decide, by decide⟩
  | RR => exact ⟨by decide, by decide⟩

theorem KeyLine.clean (k : KeyLine) : Clean k.text := by
  cases k with
  | clear key => exact .append ⟨by decide, by decide⟩ (.cons (by decide) key.clean)
  | base64 key => exact .append ⟨by decide, by decide⟩ (.cons (by decide) key.clean)
  | uri key => exact .append ⟨by decide, by decide⟩ (.cons (by decide) key.clean)
  | prompt => exact ⟨by decide, by decide⟩

theorem RepeatLine.clean (r : RepeatLine) : Clean r.text := by
  refine .append r.interval.clean (clean_flatMap (by decide) ?_)
  rw [List.forall_mem_cons, List.forall_mem_map]
  exact ⟨r.duration.clean, fun f _ => f.clean⟩

theorem TimeLine.clean (t : TimeLine) : ∀ l ∈ t.lines, Clean l ∧ l ≠ [] := by
  rw [lines, List.forall_mem_cons, List.forall_mem_map]
  refine ⟨⟨clean_line (by decide) (.append t.start.clean (clean_flatMap (by decide) ?_)), List.cons_ne_nil _ _⟩,
    fun r _ => ⟨clean_line (by decide) r.clean, List.cons_ne_nil _ _⟩⟩
  simpa using t.stop.clean

theorem ZoneLine.clean (z : ZoneLine) : Clean z.text := by
  refine .append z.time.clean (clean_flatMap (by decide) ?_)
  rw [List.forall_mem_cons, List.forall_mem_flatMap]
  refine ⟨z.offset.clean, fun p _ => ?_⟩
  simpa using ⟨p.1.clean, p.2.clean⟩

theorem AttributeLine.clean (a : AttributeLine) : Clean a.text := by
  cases a with
  | direction d => cases d <;> exact ⟨by decide, by decide⟩
  | value name v => exact .append name.clean (.cons (by decide) v.clean)

theorem RtpMapLine.clean (r : RtpMapLine) : Clean r.detail := by
  have hparms : Clean r.parmsText := by
    rw [parmsText]
    cases r.parms with
    | none => exact clean_nil
    | some parms => exact .cons (by decide) parms.clean
  exact .append r.payload.clean (.cons (by decide) (.append (.append r.name.clean (.cons (by decide) r.rate.clean)) hparms))

theorem MediaAttributeLine.clean (a : MediaAttributeLine) : Clean a.text := by
  cases a with
  | rtpmap r => exact .append ⟨by decide, by decide⟩ r.clean
  | other a _ => exact a.clean

theorem clean_optional {α : Type} {o : Option α} {letter : Char} {f : α → Data}
    (hletter : letter ≠ '\r' ∧ letter ≠ '\n') (h : ∀ a, Clean (f a)) :
    ∀ l ∈ (o.map fun a => line letter (f a)).toList, Clean l ∧ l ≠ [] := by
  intro l hl
  rw [Option.mem_toList] at hl
  obtain ⟨a, -, rfl⟩ := Option.map_eq_some_iff.mp hl
  exact ⟨clean_line hletter (h a), List.cons_ne_nil _ _⟩

theorem clean_list {α : Type} {xs : List α} {letter : Char} {f : α → Data} (hletter : letter ≠ '\r' ∧ letter ≠ '\n')
    (h : ∀ a, Clean (f a)) : ∀ l ∈ xs.map fun a => line letter (f a), Clean l ∧ l ≠ [] := by
  rw [List.forall_mem_map]
  exact fun a _ => ⟨clean_line hletter (h a), List.cons_ne_nil _ _⟩

theorem MediaBlock.clean_text (b : MediaBlock) : Clean b.text := by
  have hport : Clean b.portText := by
    rw [portText]
    cases b.numPorts with
    | none => exact .append b.port.clean clean_nil
    | some n => exact .append b.port.clean (.cons (by decide) n.clean)
  have htransport : Clean b.transport := by
    rw [transport]
    split_ifs
    · exact ⟨by decide, by decide⟩
    · exact ⟨by decide, by decide⟩
  refine .append b.media.clean (clean_flatMap (by decide) ?_)
  rw [List.forall_mem_cons, List.forall_mem_cons, List.forall_mem_map]
  exact ⟨hport, htransport, fun n _ => n.clean⟩

theorem MediaBlock.clean (b : MediaBlock) : ∀ l ∈ b.lines, Clean l ∧ l ≠ [] := by
  simp only [lines, List.forall_mem_append, List.forall_mem_cons]
  exact ⟨⟨⟨⟨⟨⟨clean_line (by decide) b.clean_text, List.cons_ne_nil _ _⟩, clean_optional (by decide) fun i => i.clean⟩,
    clean_optional (by decide) fun c => c.clean⟩, clean_optional (by decide) fun w => w.clean⟩,
    clean_optional (by decide) fun k => k.clean⟩, clean_list (by decide) fun a => a.clean⟩

theorem Description.clean (d : Description) : ∀ l ∈ d.lines, Clean l ∧ l ≠ [] := by
  have hsession : ∀ l ∈ d.sessionLines, Clean l ∧ l ≠ [] := by
    simp only [sessionLines, List.forall_mem_append, List.forall_mem_cons, List.forall_mem_flatMap]
    refine ⟨⟨⟨⟨⟨⟨⟨⟨⟨⟨?_, ?_, clean_optional (by decide) fun i => i.clean⟩, clean_optional (by decide) fun u => u.clean⟩,
      clean_list (by decide) fun e => e.clean⟩, clean_list (by decide) fun p => p.clean⟩,
      clean_optional (by decide) fun c => c.clean⟩, clean_optional (by decide) fun w => w.clean⟩, fun t _ => t.clean⟩,
      clean_optional (by decide) fun z => z.clean⟩, clean_optional (by decide) fun k => k.clean⟩,
      clean_list (by decide) fun a => a.clean⟩
    · exact ⟨clean_line (by decide) d.origin.clean, List.cons_ne_nil _ _⟩
    · exact ⟨clean_line (by decide) d.sessionName.clean, List.cons_ne_nil _ _⟩
  rw [lines, List.forall_mem_append, List.forall_mem_cons, List.forall_mem_flatMap]
  exact ⟨⟨⟨clean_line (by decide) ⟨by decide, by decide⟩, List.cons_ne_nil _ _⟩, hsession⟩, fun b _ => b.clean⟩

/-! ### Lines of a text -/

theorem linesOf_ofLines {ls : List Data} (h : ∀ l ∈ ls, Clean l ∧ l ≠ []) :
    SdpSession.linesOf (SdpSession.ofLines ls) = ls := by
  induction ls with
  | nil =>
    rw [SdpSession.linesOf]
    rfl
  | cons l ls ih =>
    obtain ⟨⟨hclean, hne⟩, hls⟩ := List.forall_mem_cons.mp h
    have hline : (SdpSession.ofLines (l :: ls)).getLine = some (l, SdpSession.ofLines ls) := by
      have htext : SdpSession.ofLines (l :: ls) = (l ++ ['\r']) ++ '\n' :: SdpSession.ofLines ls := by
        simp [SdpSession.ofLines, CRLF]
      have hlf : '\n' ∉ l ++ ['\r'] := by
        rw [List.mem_append, not_or]
        exact ⟨hclean.lf, by decide⟩
      rw [htext, Sip.Data.getLine_append hlf, Sip.Data.chopCR_append_cr]
    rw [SdpSession.linesOf]
    split
    next tmp rest heq =>
      rw [hline, Option.some_inj] at heq
      obtain ⟨rfl, rfl⟩ := Prod.mk.inj heq
      rw [if_pos (List.length_pos_iff.mpr hne), ih hls]
    next heq =>
      rw [hline] at heq
      cases heq

end Vocal.Sdp
