import BoundedCache.Text.CaseTable
import BoundedCache.Text.WhiteSpace
import Mathlib.Data.Nat.Bitwise

namespace BoundedCache.Text

/-!
# The case tables fit together

Lower-casing looks a character up in three tables, which know nothing of each other.  Checked here
is what they have to have in common: a capital and its lower case are both cased and both matter to
case (`isCased_simpleLower`, `isCaseIgnorable_simpleLower`), and no lower case is a capital itself
(`simpleLower_simpleLower`).  White space stands in none of the tables.

The tables hold thousands of code points, so they are compared as sets that are the binary digits of
a number (`pointSet`, `rangeSet`), which takes one operation on numbers for a whole table.
-/

/-! ### Sets of code points as numbers -/

/-- The number whose binary digits mark some code points. -/
def pointSet (points : List Nat) : Nat := points.foldr (fun n set => 1 <<< n ||| set) 0

/-- The number whose binary digits mark the code points of some closed ranges. -/
def rangeSet (ranges : List (Nat × Nat)) : Nat :=
  ranges.foldr (fun range set => (2 ^ (range.2 + 1 - range.1) - 1) <<< range.1 ||| set) 0

theorem testBit_pointSet {points : List Nat} {n : Nat} :
    (pointSet points).testBit n = true ↔ n ∈ points := by
  induction points with
  | nil => simp [pointSet]
  | cons point points ih =>
    have hpoint : (1 <<< point).testBit n = decide (n = point) := by
      rw [Nat.one_shiftLeft, Nat.testBit_two_pow]
      exact decide_eq_decide.2 eq_comm
    rw [pointSet, List.foldr_cons, Nat.testBit_or, ← pointSet, Bool.or_eq_true, ih, hpoint,
      List.mem_cons, decide_eq_true_eq]

theorem testBit_rangeSet (ranges : List (Nat × Nat)) (n : Nat) :
    (rangeSet ranges).testBit n = inRanges ranges n := by
  induction ranges with
  | nil => simp [rangeSet, inRanges]
  | cons range ranges ih =>
    have hrange : ((2 ^ (range.2 + 1 - range.1) - 1) <<< range.1).testBit n
        = (decide (range.1 ≤ n) && decide (n ≤ range.2)) := by
      rw [Nat.testBit_shiftLeft, Nat.testBit_two_pow_sub_one, Bool.eq_iff_iff]
      simp only [Bool.and_eq_true, decide_eq_true_eq]
      omega
    rw [rangeSet, List.foldr_cons, Nat.testBit_or, ← rangeSet, ih, hrange, inRanges, inRanges,
      List.any_cons]

section Sets

variable {set set' : Nat} {points points' : List Nat} {ranges ranges' : List (Nat × Nat)} {n : Nat}

/-- Sets without a common digit have no common point. -/
theorem testBit_of_disjoint (h : set &&& set' = 0) (hn : set.testBit n = true) :
    set'.testBit n = false := by
  have hbit := congrArg (Nat.testBit · n) h
  simpa only [Nat.testBit_and, hn, Bool.true_and, Nat.zero_testBit] using hbit

theorem testBit_of_subset (h : set &&& set' = set) (hn : set.testBit n = true) :
    set'.testBit n = true := by
  have hbit := congrArg (Nat.testBit · n) h
  simpa only [Nat.testBit_and, hn, Bool.true_and] using hbit

theorem not_mem_of_disjoint (h : pointSet points &&& pointSet points' = 0) (hn : n ∈ points) :
    n ∉ points' := by
  rw [← testBit_pointSet, Bool.not_eq_true]
  exact testBit_of_disjoint h (testBit_pointSet.2 hn)

theorem inRanges_of_disjoint (h : pointSet points &&& rangeSet ranges = 0) (hn : n ∈ points) :
    inRanges ranges n = false := by
  rw [← testBit_rangeSet]
  exact testBit_of_disjoint h (testBit_pointSet.2 hn)

theorem inRanges_of_subset (h : pointSet points &&& rangeSet ranges = pointSet points)
    (hn : n ∈ points) : inRanges ranges n = true := by
  rw [← testBit_rangeSet]
  exact testBit_of_subset h (testBit_pointSet.2 hn)

theorem inRanges_of_ranges_disjoint (h : rangeSet ranges &&& rangeSet ranges' = 0)
    (hn : inRanges ranges n = true) : inRanges ranges' n = false := by
  rw [← testBit_rangeSet] at hn ⊢
  exact testBit_of_disjoint h hn

end Sets

/-! ### Capitals and their lower case -/

/-- The lower case of a capital of a run. -/
def LowerRun.lower (run : LowerRun) (n : Nat) : Nat := (n + run.offset).toNat

/-- The capitals of a run. -/
def LowerRun.capitals (run : LowerRun) : List Nat :=
  List.range' run.first ((run.last - run.first) / run.stride + 1) run.stride

/-- The capitals of all runs. -/
def capitals : List Nat := lowerRuns.flatMap LowerRun.capitals

/-- The lower case of the capitals of all runs. -/
def smalls : List Nat := lowerRuns.flatMap fun run => run.capitals.map run.lower

/-- The code points that are characters. -/
def scalarRanges : List (Nat × Nat) := [(0, 0xD7FF), (0xE000, 0x10FFFF)]

/-- Digits with the punctuation around them, and small letters, of ASCII. -/
def asciiRanges : List (Nat × Nat) := [(0x2D, 0x3A), (0x61, 0x7A)]

/-- The code points of white space. -/
def whiteRanges : List (Nat × Nat) :=
  [(9, 13), (0x20, 0x20), (0x85, 0x85), (0xA0, 0xA0), (0x1680, 0x1680), (0x2000, 0x200A),
    (0x2028, 0x2029), (0x202F, 0x202F), (0x205F, 0x205F), (0x3000, 0x3000)]

theorem smalls_scalar : pointSet smalls &&& rangeSet scalarRanges = pointSet smalls := by
  decide +kernel

theorem smalls_not_capitals : pointSet smalls &&& pointSet capitals = 0 := by decide +kernel

theorem letters_cased :
    pointSet (capitals ++ smalls) &&& rangeSet casedRanges = pointSet (capitals ++ smalls) := by
  decide +kernel

theorem letters_not_ignorable :
    pointSet (capitals ++ smalls) &&& rangeSet caseIgnorableRanges = 0 := by
  decide +kernel

theorem white_not_cased : rangeSet whiteRanges &&& rangeSet casedRanges = 0 := by decide +kernel

theorem white_not_ignorable : rangeSet whiteRanges &&& rangeSet caseIgnorableRanges = 0 := by
  decide +kernel

theorem ascii_not_capitals : rangeSet asciiRanges &&& pointSet capitals = 0 := by decide +kernel

theorem LowerRun.mem_capitals {run : LowerRun} {n : Nat} (h : run.covers n = true) :
    n ∈ run.capitals := by
  simp only [covers, Bool.and_eq_true, decide_eq_true_eq, beq_iff_eq] at h
  obtain ⟨⟨hfirst, hlast⟩, hstride⟩ := h
  refine List.mem_range'.2 ⟨(n - run.first) / run.stride,
    Nat.lt_succ_of_le (Nat.div_le_div_right (by omega)), ?_⟩
  rw [Nat.mul_div_cancel' (Nat.dvd_of_mod_eq_zero hstride)]
  omega

/-- **A character is its own lower case**, or a capital with a small letter. -/
theorem simpleLower_cases (c : Char) :
    simpleLower c = c ∨ (c.toNat ∈ capitals ∧ (simpleLower c).toNat ∈ smalls) := by
  cases hfind : lowerRuns.find? fun run => run.covers c.toNat with
  | none =>
    left
    rw [simpleLower, hfind]
  | some run =>
    right
    have hrun := List.mem_of_find?_eq_some hfind
    have hcovers : run.covers c.toNat = true :=
      List.find?_some (p := fun run : LowerRun => run.covers c.toNat) hfind
    have hcapital := LowerRun.mem_capitals hcovers
    have hsmall : run.lower c.toNat ∈ smalls :=
      List.mem_flatMap.2 ⟨run, hrun, List.mem_map_of_mem hcapital⟩
    have hscalar := inRanges_of_subset smalls_scalar hsmall
    have hvalid : (run.lower c.toNat).isValidChar := by
      simp only [inRanges, scalarRanges, List.any_cons, List.any_nil, Bool.or_false,
        Bool.or_eq_true, Bool.and_eq_true, decide_eq_true_eq] at hscalar
      simp only [Nat.isValidChar]
      omega
    have hlower : (simpleLower c).toNat = run.lower c.toNat := by
      rw [simpleLower, hfind]
      show (Char.ofNat (run.lower c.toNat)).toNat = _
      rw [Char.ofNat, dif_pos hvalid]
      rfl
    rw [hlower]
    exact ⟨List.mem_flatMap.2 ⟨run, hrun, hcapital⟩, hsmall⟩

theorem simpleLower_of_not_mem {c : Char} (h : c.toNat ∉ capitals) : simpleLower c = c :=
  (simpleLower_cases c).resolve_right fun hletter => h hletter.1

/-- **A lower case is no capital.** -/
theorem simpleLower_simpleLower (c : Char) : simpleLower (simpleLower c) = simpleLower c := by
  rcases simpleLower_cases c with hsame | ⟨-, hsmall⟩
  · rw [hsame, hsame]
  · exact simpleLower_of_not_mem (not_mem_of_disjoint smalls_not_capitals hsmall)

theorem isCased_simpleLower (c : Char) : isCased (simpleLower c) = isCased c := by
  rcases simpleLower_cases c with hsame | ⟨hcapital, hsmall⟩
  · rw [hsame]
  · have hcased {d : Char} (hd : d.toNat ∈ capitals ++ smalls) : isCased d = true :=
      inRanges_of_subset letters_cased hd
    rw [hcased (List.mem_append_left _ hcapital), hcased (List.mem_append_right _ hsmall)]

theorem isCaseIgnorable_simpleLower (c : Char) :
    isCaseIgnorable (simpleLower c) = isCaseIgnorable c := by
  rcases simpleLower_cases c with hsame | ⟨hcapital, hsmall⟩
  · rw [hsame]
  · have hmatters {d : Char} (hd : d.toNat ∈ capitals ++ smalls) : isCaseIgnorable d = false :=
      inRanges_of_disjoint letters_not_ignorable hd
    rw [hmatters (List.mem_append_left _ hcapital), hmatters (List.mem_append_right _ hsmall)]

/-- What has no case is its own lower case. -/
theorem simpleLower_of_not_isCased {c : Char} (h : isCased c = false) : simpleLower c = c := by
  refine simpleLower_of_not_mem fun hcapital => ?_
  have hcased := inRanges_of_subset letters_cased (List.mem_append_left smalls hcapital)
  exact Bool.false_ne_true (h.symm.trans hcased)

/-- The small letters and the digits of ASCII are their own lower case. -/
theorem simpleLower_of_ascii {c : Char} (h : inRanges asciiRanges c.toNat = true) :
    simpleLower c = c := by
  refine simpleLower_of_not_mem ?_
  rw [← testBit_rangeSet] at h
  rw [← testBit_pointSet, Bool.not_eq_true]
  exact testBit_of_disjoint ascii_not_capitals h

theorem simpleLower_sigma : simpleLower 'Σ' = 'σ' := by decide +kernel

/-- No character has the lower case `Σ`. -/
theorem simpleLower_ne_sigma (c : Char) : simpleLower c ≠ 'Σ' := by
  intro hc
  have htwice := simpleLower_simpleLower c
  rw [hc, simpleLower_sigma] at htwice
  exact absurd htwice (by decide)

/-- Only `İ` has the lower case `İ`. -/
theorem eq_of_simpleLower_eq_dotted {c : Char} (h : simpleLower c = 'İ') : c = 'İ' := by
  rcases simpleLower_cases c with hsame | ⟨-, hsmall⟩
  · exact hsame.symm.trans h
  · have hdotted : 'İ'.toNat ∉ smalls := by
      rw [← testBit_pointSet]
      decide +kernel
    exact absurd (h ▸ hsmall) hdotted

/-! ### White space -/

theorem isWhiteSpace_eq (c : Char) : isWhiteSpace c = inRanges whiteRanges c.toNat := by
  rw [Bool.eq_iff_iff]
  simp only [isWhiteSpace, inRanges, whiteRanges, List.any_cons, List.any_nil, Bool.or_eq_true,
    Bool.and_eq_true, decide_eq_true_eq, beq_iff_eq, Bool.false_eq_true, or_false]
  constructor <;> omega

/-- **White space has no case.** -/
theorem isCased_of_isWhiteSpace {c : Char} (h : isWhiteSpace c = true) : isCased c = false :=
  inRanges_of_ranges_disjoint white_not_cased (isWhiteSpace_eq c ▸ h)

/-- A search for a cased neighbour ends at white space. -/
theorem isCaseIgnorable_of_isWhiteSpace {c : Char} (h : isWhiteSpace c = true) :
    isCaseIgnorable c = false :=
  inRanges_of_ranges_disjoint white_not_ignorable (isWhiteSpace_eq c ▸ h)

theorem isWhiteSpace_simpleLower (c : Char) : isWhiteSpace (simpleLower c) = isWhiteSpace c := by
  by_cases hsame : simpleLower c = c
  · rw [hsame]
  · -- Neither a capital nor its lower case is white space, for both are cased.
    have hcased : isCased c = true := by
      by_contra hcase
      exact hsame (simpleLower_of_not_isCased (Bool.not_eq_true _ ▸ hcase))
    have hblack {d : Char} (hd : isCased d = true) : isWhiteSpace d = false := by
      by_contra hwhite
      have hno := isCased_of_isWhiteSpace (Bool.not_eq_false _ ▸ hwhite)
      exact Bool.false_ne_true (hno.symm.trans hd)
    rw [hblack hcased, hblack ((isCased_simpleLower c).trans hcased)]

end BoundedCache.Text
