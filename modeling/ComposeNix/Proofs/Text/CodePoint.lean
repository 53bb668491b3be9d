import ComposeNix.Proofs.Outcome
import ComposeNix.Text.Encoding

/-!
# Spelling code points

The spelling of a row of code points is read back as that row (`points_ofPoints`), so a text says
which code points it has and no two rows are spelled alike.  A text in front that has no opener in
it is read by itself (`points_append_of_plain`).

The texts that have an encoding are the rows of characters (`isUnicode_iff`), and what is encoded
are the characters in them (`encode_eq_ok_iff`).
-/

namespace ComposeNix.Text

/-! ## Reading the spelling back -/

theorem Point.behindOpener?_surrogate (offset : Fin 0x800) :
    behindOpener? (Char.ofNat (0xE000 + offset)) = some (.surrogate offset) := by
  have hvalid : (0xE000 + offset.val).isValidChar := Or.inr ⟨by omega, by omega⟩
  have hnat : (Char.ofNat (0xE000 + offset)).toNat = 0xE000 + offset := by
    delta Char.ofNat
    rw [dif_pos hvalid]
    rfl
  have hne : Char.ofNat (0xE000 + offset) ≠ opener := by
    intro heq
    have hopener : (Char.ofNat (0xE000 + offset)).toNat = 0xFFFF := congrArg Char.toNat heq
    omega
  have hrange : 0xE000 ≤ (Char.ofNat (0xE000 + offset)).toNat
      ∧ (Char.ofNat (0xE000 + offset)).toNat < 0xE800 := by omega
  rw [behindOpener?, if_neg hne, dif_pos hrange]
  have hsub : (Char.ofNat (0xE000 + offset)).toNat - 0xE000 = offset := by omega
  simp only [hsub]

/-- A code point is read from the head of what begins with its spelling. -/
theorem pointsFrom_spelling (p : Point) (cs : List Char) :
    pointsFrom false (p.spelling ++ cs) = p :: pointsFrom false cs := by
  cases p with
  | char c =>
    rw [Point.spelling]
    split
    · next hc =>
      subst hc
      rfl
    · next hc =>
      rw [List.singleton_append, pointsFrom, if_neg Bool.false_ne_true, if_neg hc]
  | surrogate offset =>
    rw [Point.spelling, List.cons_append, List.singleton_append, pointsFrom,
      if_neg Bool.false_ne_true, if_pos rfl, pointsFrom, if_pos rfl,
      Point.behindOpener?_surrogate]

/-- A row of code points is read back from its spelling. -/
theorem points_ofPoints (ps : List Point) : points (ofPoints ps) = ps := by
  rw [points, ofPoints, String.toList_ofList]
  induction ps with
  | nil => rfl
  | cons p ps ih => rw [List.flatMap_cons, pointsFrom_spelling, ih]

/-- A text without openers is read by itself. -/
theorem points_append_of_plain {a : String} (h : opener ∉ a.toList) (b : String) :
    points (a ++ b) = a.toList.map .char ++ points b := by
  rw [points, points, String.toList_append]
  generalize a.toList = cs at h
  induction cs with
  | nil => rfl
  | cons c cs ih =>
    rw [List.mem_cons, not_or] at h
    obtain ⟨hc, hcs⟩ := h
    rw [List.cons_append, pointsFrom, if_neg Bool.false_ne_true, if_neg (Ne.symm hc), ih hcs]
    rfl

/-! ## Texts with an encoding -/

theorem firstSurrogates?_eq_none_iff {position : Nat} {ps : List Point} :
    firstSurrogates? position ps = none ↔ ∃ cs : List Char, ps = cs.map .char := by
  induction ps generalizing position with
  | nil => exact iff_of_true rfl ⟨[], rfl⟩
  | cons p ps ih =>
    cases p with
    | char c =>
      rw [firstSurrogates?, ih]
      constructor
      · rintro ⟨cs, rfl⟩
        exact ⟨c :: cs, rfl⟩
      · rintro ⟨cs, hcs⟩
        obtain ⟨_, tail, -, -, htail⟩ := List.map_eq_cons_iff.mp hcs.symm
        exact ⟨tail, htail.symm⟩
    | surrogate offset =>
      refine iff_of_false (fun h => nomatch h) ?_
      rintro ⟨cs, hcs⟩
      obtain ⟨_, _, -, hp, -⟩ := List.map_eq_cons_iff.mp hcs.symm
      exact nomatch hp

/-- A text has an encoding if its code points are characters. -/
theorem isUnicode_iff {s : String} : isUnicode s ↔ ∃ cs : List Char, points s = cs.map .char := by
  rw [isUnicode, unencodable?, Option.isNone_iff_eq_none, firstSurrogates?_eq_none_iff]

/-- A text without openers is the text of its characters. -/
theorem isUnicode_of_notMem {s : String} (h : opener ∉ s.toList) : isUnicode s := by
  have hpoints := points_append_of_plain h ""
  rw [String.append_empty] at hpoints
  exact isUnicode_iff.mpr ⟨s.toList, hpoints.trans (List.append_nil _)⟩

/-- A text without openers in front makes no difference. -/
theorem isUnicode_append_of_plain {a : String} (h : opener ∉ a.toList) {b : String} :
    isUnicode (a ++ b) ↔ isUnicode b := by
  rw [isUnicode_iff, isUnicode_iff, points_append_of_plain h]
  constructor
  · rintro ⟨cs, hcs⟩
    obtain ⟨_, tail, -, -, htail⟩ := List.append_eq_map_iff.mp hcs
    exact ⟨tail, htail.symm⟩
  · rintro ⟨cs, hcs⟩
    exact ⟨a.toList ++ cs, by rw [hcs, List.map_append]⟩

theorem unencodable?_eq_none_iff {s : String} : unencodable? s = none ↔ isUnicode s := by
  rw [isUnicode, Option.isNone_iff_eq_none]

/-- What is encoded are the characters of a text that has no other code points. -/
theorem encode_eq_ok_iff {s t : String} : encode s = .ok t ↔ points s = t.toList.map .char := by
  have hchars (cs : List Char) : (cs.map Point.char).filterMap Point.char? = cs := by
    induction cs with
    | nil => rfl
    | cons c cs ih => exact congrArg (c :: ·) ih
  rw [encode]
  cases hfault : unencodable? s with
  | some fault =>
    refine iff_of_false (fun h => nomatch h) fun hpoints => ?_
    rw [unencodable?_eq_none_iff.mpr (isUnicode_iff.mpr ⟨_, hpoints⟩)] at hfault
    exact nomatch hfault
  | none =>
    obtain ⟨cs, hcs⟩ := isUnicode_iff.mp (unencodable?_eq_none_iff.mp hfault)
    simp only [hcs, hchars, Except.ok.injEq]
    constructor
    · rintro rfl
      rw [String.toList_ofList]
    · intro hmap
      rw [(List.map_inj_right fun _ _ => Point.char.inj).mp hmap, String.ofList_toList]

theorem encode_eq_error_iff {s : String} {fault : Unencodable} :
    encode s = .error fault ↔ unencodable? s = some fault := by
  rw [encode]
  cases unencodable? s <;> simp

theorem succeeds_encode_iff {s : String} : Succeeds (encode s) ↔ isUnicode s := by
  rw [← unencodable?_eq_none_iff, encode]
  cases unencodable? s <;> simp

end ComposeNix.Text
