import Vocal.Sdp.MediaBlock

/-!
# The lines of a session that are decoded and written again

What a run of `SdpSession::decode` over the lines of a description leaves, kind by kind, and what `encode` writes of it.
-/

namespace Vocal.Sdp

open Sip (Data)

theorem foldlM_append_some {α σ : Type} {f : σ → α → Option σ} {l l' : List α} {s s' : σ}
    (h : l.foldlM f s = some s') : (l ++ l').foldlM f s = l'.foldlM f s' := by
  rw [List.foldlM_append, h]
  rfl

namespace SdpSession

variable (memory : Memory) (w : Nat) (sess : SdpSession)

/-! ### Lines that are read by themselves -/

theorem readLine_origin (o : OriginLine) :
    readLine memory w sess (line 'o' o.text) = some
      { sess with
        username := stripped '=' o.username.chars, sessionId := readId w o.sessionId, version := readId w o.version,
        networkType := .Internet, addressType := if o.ip6 then .IPV6 else .IPV4, address := o.address.chars } := by
  show some (sess.readOrigin w (textOf (line 'o' o.text))) = _
  rw [textOf_line (by decide)]
  exact congrArg some (readOrigin_text w sess o)

theorem readLine_name (x : Data) :
    readLine memory w sess (line 's' x) = some { sess with sessionName := stripped '=' x } := by
  show some { sess with sessionName := textOf (line 's' x) } = _
  rw [textOf_line (by decide)]
  rfl

theorem foldlM_info (i : Option Text) (hsess : sess.sessionInfo = []) :
    (i.map fun i => line 'i' i.chars).toList.foldlM (readLine memory w) sess =
      some { sess with sessionInfo := (i.map fun i => stripped '=' i.chars).getD [] } := by
  cases i with
  | none => exact congrArg some (hsess ▸ rfl)
  | some i =>
    show (some { sess with sessionInfo := textOf (line 'i' i.chars) }).bind _ = _
    rw [textOf_line (by decide)]
    rfl

theorem foldlM_uri (u : Option Text) (hsess : sess.uriInfo = []) :
    (u.map fun u => line 'u' u.chars).toList.foldlM (readLine memory w) sess =
      some { sess with uriInfo := (u.map fun u => stripped '=' u.chars).getD [] } := by
  cases u with
  | none => exact congrArg some (hsess ▸ rfl)
  | some u =>
    show (some { sess with uriInfo := textOf (line 'u' u.chars) }).bind _ = _
    rw [textOf_line (by decide)]
    rfl

theorem foldlM_texts (memory : Memory) (w : Nat) {letter : Char}
    (add : SdpSession → List Data → SdpSession) (hletter : letter ≠ '=')
    (hnil : ∀ sess, add sess [] = sess) (hcons : ∀ sess t ts, add (add sess [t]) ts = add sess (t :: ts))
    (hread : ∀ sess text, readLine memory w sess (line letter text) = some (add sess [textOf (line letter text)]))
    (ts : List Text) (sess : SdpSession) :
    (ts.map fun t => line letter t.chars).foldlM (readLine memory w) sess =
      some (add sess (ts.map fun t => stripped '=' t.chars)) := by
  induction ts generalizing sess with
  | nil => exact congrArg some (hnil sess).symm
  | cons t ts ih =>
    rw [List.map_cons, List.foldlM_cons, hread, textOf_line hletter]
    refine (ih _).trans ?_
    rw [hcons, List.map_cons]
    rfl

theorem foldlM_emails (es : List Text) :
    (es.map fun e => line 'e' e.chars).foldlM (readLine memory w) sess =
      some { sess with emailList := sess.emailList ++ es.map fun e => stripped '=' e.chars } :=
  foldlM_texts memory w (fun sess texts => { sess with emailList := sess.emailList ++ texts }) (by decide)
    (fun sess => by simp) (fun sess t ts => by simp) (fun sess text => rfl) es sess

theorem foldlM_phones (ps : List Text) :
    (ps.map fun p => line 'p' p.chars).foldlM (readLine memory w) sess =
      some { sess with phoneList := sess.phoneList ++ ps.map fun p => stripped '=' p.chars } :=
  foldlM_texts memory w (fun sess texts => { sess with phoneList := sess.phoneList ++ texts }) (by decide)
    (fun sess => by simp) (fun sess t ts => by simp) (fun sess text => rfl) ps sess

theorem foldlM_connection (c : Option ConnectionLine) :
    ∃ conn : Option SdpConnection, conn.map SdpConnection.encode = (c.map fun c => line 'c' (c.again memory w)) ∧
      ∀ sess : SdpSession, sess.connection = none →
        (c.map fun c => line 'c' c.text).toList.foldlM (readLine memory w) sess =
          some { sess with connection := conn } := by
  cases c with
  | none => exact ⟨none, rfl, fun sess h => h ▸ rfl⟩
  | some c =>
    obtain ⟨conn, hdecode, hencode⟩ := decode_connection memory w c
    refine ⟨some conn, congrArg some hencode, fun sess hsess => ?_⟩
    have htext : SdpConnection.decode memory w (textOf (line 'c' c.text)) = .ok conn := by
      rw [textOf_line (by decide)]
      exact hdecode
    have hread : readLine memory w sess (line 'c' c.text) = some { sess with connection := some conn } := by
      rw [readLine]
      simp only [head?_line, htext, hsess, Option.map_none, Option.getD_none]
    rw [Option.map_some, Option.toList_some, List.foldlM_cons, hread]
    rfl

theorem foldlM_bandwidth (b : Option BandwidthLine) :
    ∃ bw : Option SdpBandwidth, bw.map SdpBandwidth.encode = (b.map fun b => line 'b' (b.again w)) ∧
      ∀ sess : SdpSession, sess.bandwidth = none →
        (b.map fun b => line 'b' b.text).toList.foldlM (readLine memory w) sess =
          some { sess with bandwidth := bw } := by
  cases b with
  | none => exact ⟨none, rfl, fun sess h => h ▸ rfl⟩
  | some b =>
    obtain ⟨bw, hdecode, hencode⟩ := decode_bandwidth w b
    refine ⟨some bw, congrArg some hencode, fun sess _ => ?_⟩
    have htext : SdpBandwidth.decode w (textOf (line 'b' b.text)) = .ok bw := by
      rw [textOf_line (by decide)]
      exact hdecode
    have hread : readLine memory w sess (line 'b' b.text) = some { sess with bandwidth := some bw } := by
      rw [readLine]
      simp only [head?_line, htext]
    rw [Option.map_some, Option.toList_some, List.foldlM_cons, hread]
    rfl

theorem foldlM_key (k : Option KeyLine) (hsess : sess.encryptkey = none) :
    (k.map fun k => line 'k' k.text).toList.foldlM (readLine memory w) sess =
      some { sess with encryptkey := (keyOf k).toOption.join } := by
  have hnone : some sess = some { sess with encryptkey := none } := by rw [← hsess]
  cases k with
  | none => exact hnone
  | some k =>
    have htext : textOf (line 'k' k.text) = stripped '=' k.text := textOf_line (by decide) _
    rw [Option.map_some, Option.toList_some, List.foldlM_cons, readLine, keyOf]
    simp only [head?_line, htext]
    cases SdpEncryptkey.decode (stripped '=' k.text) with
    | error e => exact hnone
    | ok key => rfl

theorem foldlM_zones (z : Option ZoneLine) :
    (z.map fun z => line 'z' z.text).toList.foldlM (readLine memory w) sess =
      some { sess with
        zoneAdjustmentList := sess.zoneAdjustmentList ++
          (z.map fun z => zoneAdjustments (split (stripped '=' z.text) [' '])).getD [] } := by
  cases z with
  | none => simp
  | some z =>
    have hread : readLine memory w sess (line 'z' z.text) =
        some { sess with
          zoneAdjustmentList := sess.zoneAdjustmentList ++ zoneAdjustments (split (textOf (line 'z' z.text)) [' ']) } :=
      rfl
    rw [textOf_line (by decide)] at hread
    rw [Option.map_some, Option.toList_some, List.foldlM_cons, hread]
    rfl

theorem foldlM_attributes (ls : List AttributeLine) :
    (ls.map fun l => line 'a' l.text).foldlM (readLine memory w) sess =
      some { sess with
        attrib := if ls = [] then sess.attrib
          else some (ls.foldl (fun a l => a.setAttribute (stripped '=' l.text)) (sess.attrib.getD {})) } := by
  induction ls generalizing sess with
  | nil => rfl
  | cons l ls ih =>
    have hread : readLine memory w sess (line 'a' l.text) =
        some { sess with attrib := some ((sess.attrib.getD {}).setAttribute (textOf (line 'a' l.text))) } := rfl
    rw [textOf_line (by decide)] at hread
    rw [List.map_cons, List.foldlM_cons, hread]
    refine (ih _).trans ?_
    cases ls with
    | nil => rfl
    | cons l' ls => rfl

/-! ### The loop over the lines -/

theorem readLines_append {ls rest : List Data} (h : ∀ l ∈ ls, l.head? ≠ some 't' ∧ l.head? ≠ some 'm')
    {sess' : SdpSession} (hfold : ls.foldlM (readLine memory w) sess = some sess') :
    readLines memory w sess (ls ++ rest) = readLines memory w sess' rest := by
  induction ls generalizing sess with
  | nil =>
    obtain rfl := Option.some.inj hfold
    rfl
  | cons l ls ih =>
    obtain ⟨⟨ht, hm⟩, hls⟩ := List.forall_mem_cons.mp h
    rw [List.foldlM_cons] at hfold
    rw [List.cons_append, readLines]
    split
    next heq => exact absurd heq ht
    next heq => exact absurd heq hm
    next =>
      cases hread : readLine memory w sess l with
      | none =>
        rw [hread] at hfold
        cases hfold
      | some s =>
        rw [hread] at hfold
        exact ih s hls hfold

theorem takeWhile_append_of_head {p : Data → Bool} {ls rest : List Data} (h : ∀ l ∈ ls, p l = true)
    (hrest : ∀ l ∈ rest.head?, p l = false) :
    (ls ++ rest).takeWhile p = ls ∧ (ls ++ rest).dropWhile p = rest := by
  rw [List.takeWhile_append_of_pos h, List.dropWhile_append_of_pos h]
  cases rest with
  | nil => simp
  | cons l rest => simp [hrest l rfl]

theorem readLines_times (ts : List TimeLine) :
    ∃ times : List SdpTime, times.map SdpTime.encode = ts.map TimeLine.again ∧
      ∀ (sess : SdpSession) (rest : List Data), (∀ l ∈ rest.head?, l.head? ≠ some 'r') →
        readLines memory w sess (ts.flatMap TimeLine.lines ++ rest) =
          readLines memory w { sess with sdpTimeList := sess.sdpTimeList ++ times } rest := by
  induction ts with
  | nil => exact ⟨[], rfl, fun sess rest _ => by rw [List.append_nil]; rfl⟩
  | cons t ts ih =>
    obtain ⟨times, hencode, hread⟩ := ih
    obtain ⟨time, hdecode, htime⟩ := decode_time t
    refine ⟨time :: times, by rw [List.map_cons, List.map_cons, hencode, htime], fun sess rest hrest => ?_⟩
    have hmore : ∀ l ∈ (ts.flatMap TimeLine.lines ++ rest).head?, decide (l.head? = some 'r') = false := by
      cases ts with
      | nil => exact fun l hl => decide_eq_false (hrest l hl)
      | cons t' ts =>
        rintro l hl
        obtain rfl := Option.some.inj hl
        rfl
    have hrepeats : ∀ l ∈ t.repeats.map fun r => line 'r' r.text, decide (l.head? = some 'r') = true := by
      rw [List.forall_mem_map]
      exact fun r _ => rfl
    obtain ⟨htake, hdrop⟩ := takeWhile_append_of_head hrepeats hmore
    rw [List.flatMap_cons, List.append_assoc, TimeLine.lines, List.cons_append, readLines]
    show readLines memory w (sess.readTime (line 't' t.text) (List.takeWhile _ _)) (List.dropWhile _ _) = _
    rw [htake, hdrop, readTime, hdecode, hread _ rest hrest]
    rw [List.append_assoc, List.singleton_append]

theorem readLines_media (bs : List MediaBlock) :
    readLines memory w sess (bs.flatMap MediaBlock.lines) =
      bs.foldlM (fun sess b => sess.readMedia memory w b.lines) sess := by
  induction bs generalizing sess with
  | nil => rw [List.flatMap_nil, readLines]; rfl
  | cons b bs ih =>
    have hblocks : ∀ g ∈ bs.map MediaBlock.lines, Groups.Block (fun l : Data => l.head? = some 'm') g := by
      rw [List.forall_mem_map]
      exact fun b _ => b.block
    obtain ⟨a, more, hlines, ha, hmore⟩ := b.block
    have hrest : ∀ l ∈ (bs.flatMap MediaBlock.lines).head?, decide (l.head? ≠ some 'm') = false := fun l hl =>
      decide_eq_false (not_not.mpr (Groups.head?_flatten_of_block hblocks l hl))
    obtain ⟨htake, hdrop⟩ := takeWhile_append_of_head (fun l hl => decide_eq_true (hmore l hl)) hrest
    rw [List.flatMap_cons, hlines, List.cons_append, readLines, List.foldlM_cons, hlines]
    split
    next heq => exact absurd (ha.symm.trans heq) (by decide)
    next =>
      rw [htake, hdrop]
      cases readMedia memory w sess (a :: more) with
      | none => rfl
      | some s => exact ih s
    next hne => exact absurd ha hne

end SdpSession

end Vocal.Sdp
