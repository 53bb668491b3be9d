import ComposeNix.Proofs.Nix.Quoted

/-!
# Reading the name of an attribute

Where Nix expects the name of an attribute it takes an identifier or a text in quotes.  An
identifier goes on as long as it can, and nine of them are keywords, which are no names.

A name is written bare if it is an identifier, and in quotes otherwise, with two slips.  A keyword is
written bare, and so is an identifier with a line feed behind it; the reader takes the line
feed for white space.  `readName_attributeName_iff`: these are the only names that are not read
as they were meant, and two different names are the same attribute only if they are an
identifier and that identifier with its line feed.
-/

namespace ComposeNix.Nix

/-! ## Reading -/

/-- The identifiers that are no names. -/
def keywords : List (List Char) :=
  ["if", "then", "else", "assert", "with", "let", "in", "rec", "inherit"].map String.toList

/-- Whether a text is one of them. -/
def isKeyword (w : List Char) : Bool := keywords.contains w

/-- Whether a text is an identifier, be it a keyword or not. -/
def isIdentifier : List Char → Bool
  | [] => false
  | c :: cs => isWordStart c && cs.all isWordChar

/-- Reads the identifier that a text begins with, unless it is a keyword. -/
def readIdentifier : List Char → Option (List Char × List Char)
  | [] => none
  | c :: cs =>
    if isWordStart c then
      if isKeyword (c :: cs.takeWhile isWordChar) then none
      else some (c :: cs.takeWhile isWordChar, cs.dropWhile isWordChar)
    else none

/-- Reads the name of an attribute, with what stands behind it. -/
def readName (cs : List Char) : Option (List Char × List Char) :=
  match readQuoted cs with
  | some (.closed text rest) => some (text, rest)
  | some _ => none
  | none => readIdentifier cs

theorem readName_quote (name rest : List Char) :
    readName (quote name ++ rest) = some (name, rest) := by
  rw [readName, readQuoted_quote_append]

/-- Up to a character that ends it, an identifier is read whole. -/
theorem readName_identifier {w rest : List Char} (hw : isIdentifier w = true)
    (hrest : Delimits rest) :
    readName (w ++ rest) = if isKeyword w then none else some (w, rest) := by
  cases w with
  | nil => exact absurd hw (by decide)
  | cons c cs =>
    rw [isIdentifier, Bool.and_eq_true, List.all_eq_true] at hw
    obtain ⟨hc, hcs⟩ := hw
    have hquote : c ≠ '"' := by
      rintro rfl
      exact absurd hc (by decide)
    have hunquoted : readQuoted (c :: (cs ++ rest)) = none := by
      rw [readQuoted.eq_def]
      split <;> simp_all
    have htake : (cs ++ rest).takeWhile isWordChar = cs := by
      rw [List.takeWhile_append_of_pos hcs]
      cases rest with
      | nil => simp
      | cons d rest => simp [hrest d rfl]
    have hdrop : (cs ++ rest).dropWhile isWordChar = rest := by
      rw [List.dropWhile_append_of_pos hcs]
      cases rest with
      | nil => rfl
      | cons d rest => simp [hrest d rfl]
    rw [List.cons_append, readName, hunquoted]
    show readIdentifier (c :: (cs ++ rest)) = _
    rw [readIdentifier, if_pos hc, htake, hdrop]

/-! ## Names that are written bare -/

theorem isIdentifier_of_isKeyword {w : List Char} (h : isKeyword w = true) :
    isIdentifier w = true :=
  (by decide : ∀ w ∈ keywords, isIdentifier w = true) w (List.contains_iff_mem.mp h)

/-- A name is written bare if it is an identifier, or one with a line feed behind it. -/
theorem isPlainName_iff {name : List Char} : isPlainName name = true
    ↔ isIdentifier name = true ∨ ∃ w, isIdentifier w = true ∧ name = w ++ ['\n'] := by
  constructor
  · intro h
    cases name with
    | nil => exact absurd h (by decide)
    | cons c cs =>
      rw [isPlainName, Bool.and_eq_true, Bool.or_eq_true, beq_iff_eq, beq_iff_eq] at h
      obtain ⟨hc, hend⟩ := h
      have hword : isIdentifier (c :: cs.takeWhile isWordChar) = true := by
        rw [isIdentifier, hc, List.all_takeWhile]
        rfl
      have hsplit := List.takeWhile_append_dropWhile (p := isWordChar) (l := cs)
      rcases hend with hend | hend
      · rw [hend, List.append_nil] at hsplit
        rw [hsplit] at hword
        exact Or.inl hword
      · rw [hend] at hsplit
        exact Or.inr ⟨_, hword, by rw [List.cons_append, hsplit]⟩
  · have hplain : ∀ w tail : List Char, isIdentifier w = true →
        tail.dropWhile isWordChar = [] ∨ tail.dropWhile isWordChar = ['\n'] →
          isPlainName (w ++ tail) = true := by
      intro w tail hw htail
      cases w with
      | nil => exact absurd hw (by decide)
      | cons c cs =>
        rw [isIdentifier, Bool.and_eq_true, List.all_eq_true] at hw
        rw [List.cons_append, isPlainName, hw.1, List.dropWhile_append_of_pos hw.2]
        simpa using htail
    rintro (hw | ⟨w, hw, rfl⟩)
    · rw [← List.append_nil name]
      exact hplain name [] hw (Or.inl rfl)
    · exact hplain w ['\n'] hw (Or.inr rfl)

/-- A name that is written bare although it is not read as itself. -/
def Misread (name : List Char) : Prop :=
  isKeyword name = true ∨ ∃ w, isIdentifier w = true ∧ name = w ++ ['\n']

section Read

variable {w rest : List Char} (hw : isIdentifier w = true)
include hw

/-- An identifier is read as itself, unless it is a keyword. -/
theorem readName_bare (hrest : Delimits rest) :
    readName (attributeName w ++ rest) = if isKeyword w then none else some (w, rest) := by
  rw [attributeName, if_pos (isPlainName_iff.mpr (Or.inl hw)), readName_identifier hw hrest]

/-- The line feed behind an identifier is not part of the name that is read. -/
theorem readName_newline (rest : List Char) :
    readName (attributeName (w ++ ['\n']) ++ rest)
      = if isKeyword w then none else some (w, '\n' :: rest) := by
  rw [attributeName, if_pos (isPlainName_iff.mpr (Or.inr ⟨w, hw, rfl⟩)), List.append_assoc,
    List.singleton_append, readName_identifier hw (delimits_cons (by decide) rest)]

end Read

section Meant

variable {name rest : List Char} (hrest : Delimits rest)
include hrest

/-- A keyword is no name. -/
theorem readName_of_isKeyword (h : isKeyword name = true) :
    readName (attributeName name ++ rest) = none := by
  rw [readName_bare (isIdentifier_of_isKeyword h) hrest, if_pos h]

/-- A name that is not misread is read as it was meant. -/
theorem readName_of_not_misread (h : ¬ Misread name) :
    readName (attributeName name ++ rest) = some (name, rest) := by
  rw [Misread, not_or] at h
  obtain ⟨hkeyword, hfeed⟩ := h
  by_cases hplain : isPlainName name = true
  · have hname := (isPlainName_iff.mp hplain).resolve_right hfeed
    rw [readName_bare hname hrest, if_neg hkeyword]
  · rw [attributeName, if_neg hplain, readName_quote]

/-- What is read as a name was that name, or the name with a line feed. -/
theorem eq_or_eq_of_fst_readName {w : List Char}
    (h : (readName (attributeName name ++ rest)).map Prod.fst = some w) :
    name = w ∨ (name = w ++ ['\n'] ∧ isIdentifier w = true ∧ ¬ isKeyword w = true) := by
  by_cases hname : Misread name
  · rcases hname with hkeyword | ⟨v, hv, rfl⟩
    · rw [readName_of_isKeyword hrest hkeyword] at h
      exact nomatch h
    · rw [readName_newline hv] at h
      split at h
      · exact nomatch h
      · rename_i hkeyword
        obtain rfl : v = w := Option.some.inj h
        exact Or.inr ⟨rfl, hv, hkeyword⟩
  · rw [readName_of_not_misread hrest hname] at h
    exact Or.inl (Option.some.inj h)

end Meant

/-! ## What is kept of a name -/

/-- Up to where its attribute ends, a name is read as it was meant exactly if it is no keyword and no
identifier with a line feed behind it.  A keyword cannot be read; an identifier with a line feed
is read as the identifier, unless that is a keyword.  So two different names are one attribute
exactly if they are an identifier and that identifier with a line feed. -/
theorem readName_attributeName_iff {rest : List Char} (hrest : Delimits rest) (name : List Char) :
    (readName (attributeName name ++ rest) = some (name, rest) ↔ ¬ Misread name)
      ∧ (isKeyword name = true → readName (attributeName name ++ rest) = none)
      ∧ (∀ w, isIdentifier w = true → name = w ++ ['\n'] →
        readName (attributeName name ++ rest)
          = if isKeyword w then none else some (w, '\n' :: rest))
      ∧ ∀ other, name ≠ other →
        ((∃ w, (readName (attributeName name ++ rest)).map Prod.fst = some w
            ∧ (readName (attributeName other ++ rest)).map Prod.fst = some w)
          ↔ ∃ w, isIdentifier w = true ∧ ¬ isKeyword w = true
            ∧ ((name = w ∧ other = w ++ ['\n']) ∨ (name = w ++ ['\n'] ∧ other = w))) := by
  refine ⟨⟨?_, readName_of_not_misread hrest⟩, readName_of_isKeyword hrest, ?_, ?_⟩
  · rintro hread (hkeyword | ⟨w, hw, rfl⟩)
    · rw [readName_of_isKeyword hrest hkeyword] at hread
      exact nomatch hread
    · rw [readName_newline hw] at hread
      split at hread
      · exact nomatch hread
      · have hlength := congrArg List.length (Prod.mk.inj (Option.some.inj hread)).1
        rw [List.length_append, List.length_singleton] at hlength
        omega
  · rintro w hw rfl
    exact readName_newline hw rest
  · intro other hne
    constructor
    · rintro ⟨w, hname, hother⟩
      rcases eq_or_eq_of_fst_readName hrest hname with rfl | ⟨hname, hw, hkeyword⟩
      · rcases eq_or_eq_of_fst_readName hrest hother with rfl | ⟨hother, hw, hkeyword⟩
        · exact absurd rfl hne
        · exact ⟨name, hw, hkeyword, Or.inl ⟨rfl, hother⟩⟩
      · rcases eq_or_eq_of_fst_readName hrest hother with rfl | ⟨hother, -, -⟩
        · exact ⟨other, hw, hkeyword, Or.inr ⟨hname, rfl⟩⟩
        · exact absurd (hname.trans hother.symm) hne
    · rintro ⟨w, hw, hkeyword, ⟨rfl, rfl⟩ | ⟨rfl, rfl⟩⟩
      · exact ⟨name, by rw [readName_bare hw hrest, if_neg hkeyword]; rfl,
          by rw [readName_newline hw, if_neg hkeyword]; rfl⟩
      · exact ⟨other, by rw [readName_newline hw, if_neg hkeyword]; rfl,
          by rw [readName_bare hw hrest, if_neg hkeyword]; rfl⟩

/-- A name with a dot in it is read as it was meant, and is not the attribute of the name with a
line feed more. -/
theorem readName_attributeName_dotted : Delimits " = ".toList ∧ ¬ Misread "my.app".toList
    ∧ readName (attributeName "my.app".toList ++ " = ".toList)
      = some ("my.app".toList, " = ".toList)
    ∧ ¬ ∃ w, (readName (attributeName "my.app".toList ++ " = ".toList)).map Prod.fst = some w
      ∧ (readName (attributeName "my.app\n".toList ++ " = ".toList)).map Prod.fst = some w := by
  have hrest : Delimits " = ".toList := delimits_cons (by decide) _
  obtain ⟨hread, -, -, hsame⟩ := readName_attributeName_iff hrest "my.app".toList
  have hmeant : ¬ Misread "my.app".toList := by
    rintro (hkeyword | ⟨w, -, hw⟩)
    · exact absurd hkeyword (by decide)
    · have hlast := congrArg List.getLast? hw
      rw [List.getLast?_concat] at hlast
      exact absurd hlast (by decide)
  refine ⟨hrest, hmeant, hread.mpr hmeant, fun hshared => ?_⟩
  obtain ⟨w, hw, -, hname⟩ := (hsame "my.app\n".toList (by decide)).mp hshared
  rcases hname with ⟨rfl, -⟩ | ⟨-, rfl⟩
  · exact absurd hw (by decide)
  · exact absurd hw (by decide)

/-- The keyword `with` cannot be read, and `a` and `a` with a line feed are one attribute. -/
theorem not_readName_attributeName_with :
    readName (attributeName "with".toList ++ " = ".toList) = none
      ∧ readName (attributeName "a\n".toList ++ " = ".toList) = some (['a'], "\n = ".toList)
      ∧ readName (attributeName "a".toList ++ " = ".toList) = some (['a'], " = ".toList) := by
  decide

end ComposeNix.Nix
