import Mathlib.Data.BitVec
import Vocal.Lib.SortedMap

/-!
# Deleting the oldest billing files

`CdrBilling::deleteOldestFiles`, which chooses among the files through a map by their times, so that of the files of
one time the last one that was listed stays alone, and counts bytes as an `int`.
-/

namespace Vocal.Cdr

/-- A billing file that can be read: its size, and the time that `getLastModification` gives (`st_ctime`). -/
structure UnsentFile where
  name : List Char
  size : Nat
  lastModified : Int
  deriving DecidableEq, Repr

namespace CdrBilling

/-- `BILLING_MIN_DELETE_SIZE`. -/
def BILLING_MIN_DELETE_SIZE : Int := 1000000

/-- `BILLING_MAX_TOTAL_SIZE`. -/
def BILLING_MAX_TOTAL_SIZE : Int := 20000000

/-- A count of bytes as an `int`. -/
def toInt (n : Int) : Int := n.bmod (2 ^ 32)

/-- The sum of the sizes that is counted. -/
def totalByteCount (files : List UnsentFile) : Int := files.foldl (fun total f => toInt (total + f.size)) 0

/-- `fileDateMap`. -/
def fileDateMap (files : List UnsentFile) : List (Int × UnsentFile) :=
  files.foldl (fun m f => SortedMap.insert f.lastModified f m) []

/-- The loop that deletes, with the number of bytes that it has counted. -/
def deleteFrom (deletedByteCount : Int) : List UnsentFile → List UnsentFile
  | [] => []
  | f :: rest =>
    if BILLING_MIN_DELETE_SIZE ≤ deletedByteCount then []
    else f :: deleteFrom (toInt (deletedByteCount + f.size)) rest

/-- The files that `CdrBilling::deleteOldestFiles` deletes of those that `directoryList` lists, in its order. -/
def deleteOldestFiles (files : List UnsentFile) : List UnsentFile :=
  if totalByteCount files < BILLING_MAX_TOTAL_SIZE then []
  else deleteFrom 0 ((fileDateMap files).map Prod.snd)

/-! ## What is expected -/

/-- The sum of the sizes. -/
def bytes (files : List UnsentFile) : Nat := (files.map UnsentFile.size).sum

/-- The files go by their age, as many as are needed, and none where there is room. -/
structure OldestFirst (files deleted : List UnsentFile) : Prop where
  room : (bytes files : Int) < BILLING_MAX_TOTAL_SIZE → deleted = []
  oldest : ∀ kept ∈ files, kept ∉ deleted → ∀ f ∈ deleted, f.lastModified ≤ kept.lastModified
  enough : BILLING_MAX_TOTAL_SIZE ≤ bytes files → BILLING_MIN_DELETE_SIZE ≤ bytes deleted ∨ ∀ f ∈ files, f ∈ deleted
  needed : (bytes deleted.dropLast : Int) < BILLING_MIN_DELETE_SIZE

/-- The files that are listed last among those of their time. -/
def lastListed (files : List UnsentFile) : List UnsentFile :=
  files.pwFilter fun f g => f.lastModified ≠ g.lastModified

/-- The bytes of the files that are listed last, up to a time. -/
def bytesUpTo (files : List UnsentFile) (time : Int) : Nat :=
  bytes ((lastListed files).filter fun f => f.lastModified ≤ time)

/-- Files of one time are not reached or do not matter, and no count that matters is too large for an `int`. -/
structure Countable (files : List UnsentFile) : Prop where
  total : BILLING_MAX_TOTAL_SIZE ≤ bytes files → BILLING_MAX_TOTAL_SIZE ≤ toInt (bytes files)
  times : BILLING_MAX_TOTAL_SIZE ≤ bytes files → ∀ f ∈ files, ∀ g ∈ files, f ≠ g → f.lastModified = g.lastModified →
    BILLING_MIN_DELETE_SIZE ≤ bytesUpTo files f.lastModified
  counts : BILLING_MAX_TOTAL_SIZE ≤ bytes files → ∀ f ∈ lastListed files,
    BILLING_MIN_DELETE_SIZE ≤ bytesUpTo files f.lastModified →
    (bytesUpTo files f.lastModified : Int) < BILLING_MIN_DELETE_SIZE + f.size →
    BILLING_MIN_DELETE_SIZE ≤ toInt (bytesUpTo files f.lastModified) ∨ ∀ g ∈ files, g.lastModified ≤ f.lastModified

/-! ## Counting -/

variable {files p q : List UnsentFile} {f g : UnsentFile}

@[simp] theorem bytes_nil : bytes [] = 0 := rfl

@[simp] theorem bytes_cons : bytes (f :: p) = f.size + bytes p := rfl

@[simp] theorem bytes_append : bytes (p ++ q) = bytes p + bytes q := by
  rw [bytes, bytes, bytes, List.map_append, List.sum_append]

theorem toInt_of_lt {n : Nat} (h : (n : Int) < 2 ^ 31) : toInt n = n :=
  Int.bmod_eq_of_le (by omega) (by omega)

theorem toInt_add (n : Int) (k : Nat) : toInt (toInt n + k) = toInt (n + k) := Int.bmod_add_bmod

theorem foldl_toInt (files : List UnsentFile) (n : Int) :
    files.foldl (fun total f => toInt (total + f.size)) (toInt n) = toInt (n + bytes files) := by
  induction files generalizing n with
  | nil => simp
  | cons f files ih =>
    rw [List.foldl_cons, toInt_add, ih, bytes_cons, Nat.cast_add, Int.add_assoc]

theorem totalByteCount_eq (files : List UnsentFile) : totalByteCount files = toInt (bytes files) := by
  have hsum := foldl_toInt files 0
  rwa [Int.zero_add] at hsum

theorem deleteFrom_cases (n : Int) (files : List UnsentFile) :
    ∃ p q, files = p ++ q ∧ deleteFrom (toInt n) files = p ∧
      (∀ a f b, p = a ++ f :: b → toInt (n + bytes a) < BILLING_MIN_DELETE_SIZE) ∧
      (q = [] ∨ BILLING_MIN_DELETE_SIZE ≤ toInt (n + bytes p)) := by
  induction files generalizing n with
  | nil => exact ⟨[], [], rfl, rfl, fun a f b h => by simp at h, Or.inl rfl⟩
  | cons f files ih =>
    rw [deleteFrom]
    split_ifs with hle
    · exact ⟨[], f :: files, rfl, rfl, fun a f b h => by simp at h, Or.inr (by simpa using hle)⟩
    · obtain ⟨p, q, hfiles, hdelete, hcount, hend⟩ := ih (n + f.size)
      refine ⟨f :: p, q, by rw [hfiles]; rfl, by rw [toInt_add, hdelete], fun a g b h => ?_, ?_⟩
      · cases a with
        | nil => simpa using hle
        | cons f' a =>
          obtain ⟨rfl, hp⟩ := List.cons.inj h
          have hlt := hcount a g b hp
          rwa [bytes_cons, Nat.cast_add, ← Int.add_assoc]
      · rwa [bytes_cons, Nat.cast_add, ← Int.add_assoc]

/-! ## The candidates -/

/-- The files of the map, by their time. -/
def candidates (files : List UnsentFile) : List UnsentFile := (fileDateMap files).map Prod.snd

theorem forall_lastListed_iff :
    (∀ g ∈ lastListed files, f.lastModified ≠ g.lastModified) ↔ ∀ g ∈ files, f.lastModified ≠ g.lastModified := by
  apply List.forall_mem_pwFilter
  intro x y z hxz
  by_cases hxy : x.lastModified = y.lastModified
  · exact Or.inr (hxy ▸ hxz)
  · exact Or.inl hxy

/-- What stays in the map of a time is the file that was listed last. -/
theorem lookup_foldl (files : List UnsentFile) (m : List (Int × UnsentFile)) :
    (∀ f ∈ lastListed files, SortedMap.lookup f.lastModified
        (files.foldl (fun m f => SortedMap.insert f.lastModified f m) m) = some f) ∧
      ∀ time, (∀ f ∈ files, time ≠ f.lastModified) →
        SortedMap.lookup time (files.foldl (fun m f => SortedMap.insert f.lastModified f m) m) = SortedMap.lookup time m := by
  induction files generalizing m with
  | nil => exact ⟨fun f hf => by simp [lastListed] at hf, fun time _ => rfl⟩
  | cons f files ih =>
    obtain ⟨hlast, hother⟩ := ih (SortedMap.insert f.lastModified f m)
    simp only [List.foldl_cons]
    refine ⟨fun g hg => ?_, fun time htime => ?_⟩
    · by_cases hnew : ∀ b ∈ lastListed files, f.lastModified ≠ b.lastModified
      · rw [lastListed, List.pwFilter_cons_of_pos hnew] at hg
        rcases List.mem_cons.mp hg with rfl | hg
        · have hnone : ∀ b ∈ files, g.lastModified ≠ b.lastModified :=
            (List.forall_mem_pwFilter (fun {x y z} hxz => by
              by_cases hxy : x.lastModified = y.lastModified
              · exact Or.inr (hxy ▸ hxz)
              · exact Or.inl hxy) g files).mp hnew
          rw [hother _ hnone, SortedMap.lookup_insert]
        · exact hlast g hg
      · rw [lastListed, List.pwFilter_cons_of_neg hnew] at hg
        exact hlast g hg
    · rw [hother time fun b hb => htime b (List.mem_cons_of_mem f hb),
        SortedMap.lookup_insert_of_ne (htime f (List.mem_cons_self ..))]

theorem fileDateMap_spec (files : List UnsentFile) :
    SortedMap.Sorted (fileDateMap files) ∧ ∀ e ∈ fileDateMap files, e.1 = e.2.lastModified ∧ e.2 ∈ files := by
  induction files using List.reverseRecOn with
  | nil => exact ⟨SortedMap.sorted_nil, fun e he => by cases he⟩
  | append_singleton files f ih =>
    obtain ⟨hsorted, hentries⟩ := ih
    rw [fileDateMap, List.foldl_append, List.foldl_cons, List.foldl_nil]
    refine ⟨hsorted.insert, fun e he => ?_⟩
    rcases SortedMap.mem_of_mem_insert he with rfl | he
    · exact ⟨rfl, by simp⟩
    · obtain ⟨htime, hmem⟩ := hentries e he
      exact ⟨htime, by simp [hmem]⟩

theorem candidates_sorted (files : List UnsentFile) :
    (candidates files).Pairwise (·.lastModified < ·.lastModified) := by
  obtain ⟨hsorted, hentries⟩ := fileDateMap_spec files
  rw [candidates, List.pairwise_map]
  refine List.Pairwise.imp_of_mem (fun {a b} ha hb hlt => ?_) hsorted
  rwa [← (hentries a ha).1, ← (hentries b hb).1]

theorem mem_of_mem_candidates (h : f ∈ candidates files) : f ∈ files := by
  obtain ⟨e, he, rfl⟩ := List.mem_map.mp h
  exact ((fileDateMap_spec files).2 e he).2

theorem mem_candidates_of_lastListed (h : f ∈ lastListed files) : f ∈ candidates files :=
  List.mem_map.mpr ⟨_, SortedMap.mem_of_lookup ((lookup_foldl files []).1 f h), rfl⟩

theorem exists_lastListed (h : f ∈ files) : ∃ g ∈ lastListed files, g.lastModified = f.lastModified := by
  by_contra hnone
  have hne : ∀ g ∈ lastListed files, f.lastModified ≠ g.lastModified := fun g hg heq => hnone ⟨g, hg, heq.symm⟩
  exact forall_lastListed_iff.mp hne f h rfl

theorem lookup_of_mem_candidates (h : f ∈ candidates files) :
    SortedMap.lookup f.lastModified (fileDateMap files) = some f := by
  obtain ⟨hsorted, hentries⟩ := fileDateMap_spec files
  obtain ⟨e, he, rfl⟩ := List.mem_map.mp h
  rw [← (hentries e he).1]
  exact hsorted.lookup_of_mem he

theorem eq_of_candidates (hf : f ∈ candidates files) (hg : g ∈ candidates files)
    (htime : f.lastModified = g.lastModified) : f = g := by
  have hlookup := lookup_of_mem_candidates hf
  rw [htime, lookup_of_mem_candidates hg] at hlookup
  exact (Option.some.inj hlookup).symm

theorem mem_candidates_iff : f ∈ candidates files ↔ f ∈ lastListed files := by
  refine ⟨fun h => ?_, mem_candidates_of_lastListed⟩
  obtain ⟨g, hg, htime⟩ := exists_lastListed (mem_of_mem_candidates h)
  rwa [eq_of_candidates h (mem_candidates_of_lastListed hg) htime.symm]

theorem perm_candidates (files : List UnsentFile) : (candidates files).Perm (lastListed files) := by
  have hcandidates : (candidates files).Nodup := (candidates_sorted files).imp fun hlt heq => by simp [heq] at hlt
  have hlast : (lastListed files).Nodup := (List.pairwise_pwFilter files).imp fun hne heq => hne (by rw [heq])
  exact (List.perm_ext_iff_of_nodup hcandidates hlast).mpr fun _ => mem_candidates_iff

theorem bytesUpTo_eq (files : List UnsentFile) (time : Int) :
    bytesUpTo files time = bytes ((candidates files).filter fun f => f.lastModified ≤ time) :=
  (((perm_candidates files).filter _).map _).sum_nat.symm

theorem bytesUpTo_of_append {a b : List UnsentFile} (h : candidates files = a ++ f :: b) :
    bytesUpTo files f.lastModified = bytes a + f.size := by
  have hsorted := candidates_sorted files
  rw [h, List.pairwise_append, List.pairwise_cons] at hsorted
  obtain ⟨-, ⟨hb, -⟩, ha⟩ := hsorted
  have hfilter : (a ++ f :: b).filter (fun g => g.lastModified ≤ f.lastModified) = a ++ [f] := by
    rw [List.filter_append, List.filter_cons_of_pos (by simp)]
    have hleft : a.filter (fun g => g.lastModified ≤ f.lastModified) = a :=
      List.filter_eq_self.mpr fun g hg => by simpa using Int.le_of_lt (ha g hg f (List.mem_cons_self ..))
    have hright : b.filter (fun g => g.lastModified ≤ f.lastModified) = [] :=
      List.filter_eq_nil_iff.mpr fun g hg => by simpa using hb g hg
    rw [hleft, hright]
  rw [bytesUpTo_eq, h, hfilter]
  simp

theorem bytes_le_bytesUpTo {time : Int} (h : candidates files = p ++ q) (hp : ∀ f ∈ p, f.lastModified ≤ time) :
    bytes p ≤ bytesUpTo files time := by
  have hfilter : p.filter (fun f => f.lastModified ≤ time) = p := List.filter_eq_self.mpr fun f hf => by simpa using hp f hf
  rw [bytesUpTo_eq, h, List.filter_append, hfilter, bytes_append]
  omega

/-! ## The files that are deleted -/

theorem toInt_of_lt_min {n : Nat} (h : (n : Int) < BILLING_MIN_DELETE_SIZE) : toInt n = n := by
  rw [BILLING_MIN_DELETE_SIZE] at h
  exact toInt_of_lt (by omega)

theorem exists_reached (h : BILLING_MIN_DELETE_SIZE ≤ bytes p) :
    ∃ a f b, p = a ++ f :: b ∧ (bytes a : Int) < BILLING_MIN_DELETE_SIZE ∧
      BILLING_MIN_DELETE_SIZE ≤ ((bytes a + f.size : Nat) : Int) := by
  induction p using List.reverseRecOn with
  | nil => exact absurd h (by decide)
  | append_singleton p f ih =>
    by_cases hreached : BILLING_MIN_DELETE_SIZE ≤ bytes p
    · obtain ⟨a, g, b, rfl, ha, hg⟩ := ih hreached
      exact ⟨a, g, b ++ [f], by simp, ha, hg⟩
    · exact ⟨p, f, [], rfl, by omega, by simpa using h⟩

theorem bytes_filter_le {keep : UnsentFile → Bool} : bytes (p.filter keep) ≤ bytes p := by
  induction p with
  | nil => exact Nat.le_refl 0
  | cons f p ih =>
    rw [List.filter_cons, bytes_cons]
    split_ifs
    · rw [bytes_cons]
      omega
    · omega

theorem bytes_le_dropLast {a b : List UnsentFile} : bytes a ≤ bytes (a ++ f :: b).dropLast := by
  rw [List.dropLast_append_of_ne_nil (List.cons_ne_nil f b), bytes_append]
  exact Nat.le_add_right ..

theorem eq_nil_of_lt (hend : q = [] ∨ BILLING_MIN_DELETE_SIZE ≤ toInt (bytes p))
    (h : (bytes p : Int) < BILLING_MIN_DELETE_SIZE) : q = [] := by
  rcases hend with hend | hend
  · exact hend
  · rw [toInt_of_lt_min h] at hend
    omega

section

/- What the loop deleted of the candidates. -/
variable (hcandidates : candidates files = p ++ q)
  (hcount : ∀ a f b, p = a ++ f :: b → toInt (bytes a) < BILLING_MIN_DELETE_SIZE)
  (hend : q = [] ∨ BILLING_MIN_DELETE_SIZE ≤ toInt (bytes p))
include hcandidates hend

/-- A file that another one of its time has driven out of the map is kept. -/
theorem times_of_oldestFirst (h : OldestFirst files p) (hbig : BILLING_MAX_TOTAL_SIZE ≤ bytes files) (hf : f ∈ files)
    (hnot : f ∉ candidates files) : BILLING_MIN_DELETE_SIZE ≤ bytesUpTo files f.lastModified := by
  have hkept : f ∉ p := fun hfp => hnot (hcandidates ▸ List.mem_append_left q hfp)
  have hle : ∀ g ∈ p, g.lastModified ≤ f.lastModified := h.oldest f hf hkept
  have hbytes := bytes_le_bytesUpTo hcandidates hle
  by_contra hlt
  have hnil := eq_nil_of_lt hend (by omega)
  rcases h.enough hbig with henough | hall
  · omega
  · exact hkept (hall f hf)

theorem counts_of_oldestFirst (h : OldestFirst files p) {a b : List UnsentFile} (hsplit : candidates files = a ++ f :: b)
    (ha : (bytes a : Int) < BILLING_MIN_DELETE_SIZE) (hreached : BILLING_MIN_DELETE_SIZE ≤ ((bytes a + f.size : Nat) : Int))
    (hb : b ≠ []) : BILLING_MIN_DELETE_SIZE ≤ toInt (bytes a + f.size : Nat) := by
  rw [hcandidates] at hsplit
  have hshort : ∀ r, a = p ++ r → q = r ++ f :: b → False := by
    rintro r rfl rfl
    rw [bytes_append] at ha
    exact absurd (eq_nil_of_lt hend (by omega)) (by simp)
  rcases List.append_eq_append_iff.mp hsplit with ⟨r, har, hq⟩ | ⟨r, hp, hr⟩
  · exact (hshort r har hq).elim
  · cases r with
    | nil => exact (hshort [] (by simpa using hp.symm) hr.symm).elim
    | cons f' r =>
      obtain ⟨rfl, rfl⟩ := List.cons.inj hr
      cases r with
      | nil =>
        rcases hend with rfl | hend
        · exact absurd rfl hb
        · rwa [hp, bytes_append, bytes_cons, bytes_nil] at hend
      | cons g r =>
        have hneeded := h.needed
        have hprefix : bytes (a ++ [f]) ≤ bytes p.dropLast := by
          rw [hp, show a ++ f :: g :: r = (a ++ [f]) ++ g :: r by simp]
          exact bytes_le_dropLast
        rw [bytes_append, bytes_cons, bytes_nil] at hprefix
        omega

theorem enough_of_countable (h : Countable files) (hbig : BILLING_MAX_TOTAL_SIZE ≤ bytes files) :
    BILLING_MIN_DELETE_SIZE ≤ bytes p ∨ ∀ f ∈ files, f ∈ p := by
  rcases lt_or_ge (bytes p : Int) BILLING_MIN_DELETE_SIZE with hlt | hge
  · have hall : candidates files = p := by
      rw [hcandidates, eq_nil_of_lt hend hlt, List.append_nil]
    refine Or.inr fun f hf => ?_
    obtain ⟨y, hy, htime⟩ := exists_lastListed hf
    by_cases hsame : y = f
    · rw [← hall, ← hsame]
      exact mem_candidates_of_lastListed hy
    · have henough := h.times hbig y (mem_of_mem_candidates (mem_candidates_of_lastListed hy)) f hf hsame htime
      have hle : bytesUpTo files y.lastModified ≤ bytes p := by
        rw [bytesUpTo_eq, hall]
        exact bytes_filter_le
      omega
  · exact Or.inl hge

include hcount

theorem needed_of_countable (h : Countable files) (hbig : BILLING_MAX_TOTAL_SIZE ≤ bytes files) :
    (bytes p.dropLast : Int) < BILLING_MIN_DELETE_SIZE := by
  rcases List.eq_nil_or_concat p with rfl | ⟨p', z, rfl⟩
  · decide
  · rw [List.concat_eq_append, List.dropLast_concat]
    by_contra hreached
    obtain ⟨a, f, b, rfl, ha, hf⟩ := exists_reached (Int.not_lt.mp hreached)
    have hsplit : candidates files = a ++ f :: (b ++ z :: q) := by
      rw [hcandidates]
      simp
    have hupTo := bytesUpTo_of_append hsplit
    have hlast : f ∈ lastListed files := mem_candidates_iff.mp (by rw [hsplit]; simp)
    have hlater : f.lastModified < z.lastModified := by
      have hsorted := candidates_sorted files
      rw [hsplit, List.pairwise_append, List.pairwise_cons] at hsorted
      exact hsorted.2.1.1 z (by simp)
    have hz : z ∈ files := mem_of_mem_candidates (by rw [hsplit]; simp)
    have hcounted : toInt (bytes (a ++ [f])) < BILLING_MIN_DELETE_SIZE := by
      cases b with
      | nil => exact hcount (a ++ [f]) z [] (by simp)
      | cons g b => exact hcount (a ++ [f]) g (b ++ [z]) (by simp)
    rw [bytes_append, bytes_cons, bytes_nil, Nat.add_zero] at hcounted
    rcases h.counts hbig f hlast (by rw [hupTo]; exact hf) (by rw [hupTo]; omega) with hle | hle
    · rw [hupTo] at hle
      omega
    · exact absurd (hle z hz) (by omega)

theorem oldest_of_countable (h : Countable files) (hbig : BILLING_MAX_TOTAL_SIZE ≤ bytes files) :
    ∀ kept ∈ files, kept ∉ p → ∀ d ∈ p, d.lastModified ≤ kept.lastModified := by
  intro kept hkept hnot d hd
  by_contra hlt
  obtain ⟨a, b, rfl⟩ := List.append_of_mem hd
  have hsorted := candidates_sorted files
  rw [hcandidates, List.append_assoc, List.cons_append, List.pairwise_append, List.pairwise_cons] at hsorted
  obtain ⟨y, hy, htime⟩ := exists_lastListed hkept
  by_cases hsame : y = kept
  · -- the file is a candidate behind the deleted one
    have hmem : kept ∈ candidates files := hsame ▸ mem_candidates_of_lastListed hy
    rw [hcandidates] at hmem
    have hq : kept ∈ q := (List.mem_append.mp hmem).resolve_left hnot
    exact absurd (hsorted.2.1.1 kept (List.mem_append_right b hq)) (by omega)
  · -- another file of its time has enough bytes up to it
    have hfiles : y ∈ files := mem_of_mem_candidates (mem_candidates_of_lastListed hy)
    have henough := h.times hbig y hfiles kept hkept hsame htime
    have hneeded := needed_of_countable hcandidates hcount hend h hbig
    have hprefix := bytes_le_dropLast (f := d) (a := a) (b := b)
    have hupTo : bytesUpTo files y.lastModified ≤ bytes a := by
      have hnone : (d :: (b ++ q)).filter (fun f => f.lastModified ≤ y.lastModified) = [] :=
        List.filter_eq_nil_iff.mpr fun f hf => by
          rcases List.mem_cons.mp hf with rfl | hf
          · simp
            omega
          · have hlater := hsorted.2.1.1 f hf
            simp
            omega
      rw [bytesUpTo_eq, hcandidates, List.append_assoc, List.cons_append, List.filter_append, hnone, List.append_nil]
      exact bytes_filter_le
    omega

end

/-- The oldest files go first exactly if files of one time are not reached and the counts are right. -/
theorem oldestFirst_iff (files : List UnsentFile) : OldestFirst files (deleteOldestFiles files) ↔ Countable files := by
  rw [deleteOldestFiles, totalByteCount_eq]
  rcases lt_or_ge (bytes files : Int) BILLING_MAX_TOTAL_SIZE with hsmall | hbig
  · have hcount : toInt (bytes files) = bytes files := by
      rw [BILLING_MAX_TOTAL_SIZE] at hsmall
      exact toInt_of_lt (by omega)
    rw [if_pos (by omega)]
    refine iff_of_true ⟨fun _ => rfl, fun _ _ _ f hf => by simp at hf, fun hbig => by omega, by decide⟩ ?_
    exact ⟨fun hbig => by omega, fun hbig => by omega, fun hbig => by omega⟩
  · by_cases hcount : toInt (bytes files) < BILLING_MAX_TOTAL_SIZE
    · rw [if_pos hcount]
      refine iff_of_false (fun h => ?_) fun h => absurd (h.total hbig) (by omega)
      rcases h.enough hbig with henough | hall
      · exact absurd henough (by decide)
      · have hnil : files = [] := List.eq_nil_iff_forall_not_mem.mpr fun f hf => by simpa using hall f hf
        rw [hnil] at hbig
        exact absurd hbig (by decide)
    · obtain ⟨p, q, hcandidates, hdelete, hprefix, hend⟩ := deleteFrom_cases 0 (candidates files)
      simp only [Int.zero_add] at hprefix hend
      rw [if_neg hcount, show deleteFrom 0 ((fileDateMap files).map Prod.snd) = p from hdelete]
      constructor
      · intro h
        refine ⟨fun _ => by omega, fun _ f hf g hg hne htime => ?_, fun _ f hf hreached hlt => ?_⟩
        · by_cases hcandidate : f ∈ candidates files
          · rw [htime]
            exact times_of_oldestFirst hcandidates hend h hbig hg fun hg' => hne (eq_of_candidates hcandidate hg' htime)
          · exact times_of_oldestFirst hcandidates hend h hbig hf hcandidate
        · obtain ⟨a, b, hsplit⟩ := List.append_of_mem (mem_candidates_of_lastListed hf)
          rw [bytesUpTo_of_append hsplit] at hreached hlt ⊢
          by_cases hb : b = []
          · refine Or.inr fun g hg => ?_
            obtain ⟨y, hy, htime⟩ := exists_lastListed hg
            have hmem := mem_candidates_of_lastListed hy
            have hsorted := candidates_sorted files
            rw [hsplit, hb, List.pairwise_append] at hsorted
            rw [hsplit, hb, List.mem_append, List.mem_singleton] at hmem
            rw [← htime]
            rcases hmem with hmem | rfl
            · exact Int.le_of_lt (hsorted.2.2 y hmem f (List.mem_singleton_self f))
            · exact Int.le_refl _
          · exact Or.inl (counts_of_oldestFirst hcandidates hend h hsplit (by omega) hreached hb)
      · intro h
        exact ⟨fun hsmall => by omega, oldest_of_countable hcandidates hprefix hend h hbig,
          fun _ => enough_of_countable hcandidates hend h hbig,
          needed_of_countable hcandidates hprefix hend h hbig⟩

/-- Two files of one time, of which the map holds one, and a younger file. -/
theorem not_oldestFirst :
    ¬OldestFirst [⟨['a'], 600000, 10⟩, ⟨['b'], 600000, 10⟩, ⟨['c'], 20000000, 20⟩]
      (deleteOldestFiles [⟨['a'], 600000, 10⟩, ⟨['b'], 600000, 10⟩, ⟨['c'], 20000000, 20⟩]) := by
  have hdeleted : deleteOldestFiles [⟨['a'], 600000, 10⟩, ⟨['b'], 600000, 10⟩, ⟨['c'], 20000000, 20⟩] =
      [⟨['b'], 600000, 10⟩, ⟨['c'], 20000000, 20⟩] := by decide
  rw [hdeleted]
  intro h
  exact absurd (h.oldest ⟨['a'], 600000, 10⟩ (by simp) (by simp) ⟨['c'], 20000000, 20⟩ (by simp)) (by decide)

end CdrBilling

end Vocal.Cdr
