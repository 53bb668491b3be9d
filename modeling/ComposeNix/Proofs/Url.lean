import ComposeNix.Proofs.Text.Utf8
import ComposeNix.Url
import Mathlib.Data.List.DropRight

/-!
# Where an address points that begins with a name

The text `http://NAME:TAIL` is meant as the address of the host `NAME`, whatever the tail is.  What
it is read as depends on the tail all the same.  The part of a URL with the host ends at the first
slash of either kind, question mark or number sign (`authorityPart`), and what stands before an at
sign in that part is a user.  So

* without an at sign there, a URL of this form has the name as its host and no user
  (`authority?_of_notMem`);
* with one, the name is the beginning of the user, and the host stands in the tail
  (`authority?_of_mem`).

A name (`IsHostName`) begins with a letter and goes on with letters, digits, hyphens and
underscores.  As a host it is read as it is, in small letters, unless it looks like Punycode and is
none (`IsHostName.webHost?_eq`).
-/

namespace ComposeNix.Url

/-! ## Names -/

/-- A character of a name. -/
def isNameChar (c : Char) : Bool := c.isAlphanum || c == '-' || c == '_'

/-- A letter and then characters of a name. -/
def IsHostName (cs : List Char) : Prop :=
  cs.head?.any Char.isAlpha = true ∧ cs.all isNameChar = true

instance (cs : List Char) : Decidable (IsHostName cs) := inferInstanceAs (Decidable (_ ∧ _))

/-- A name in small letters. -/
def lowerName (cs : List Char) : List Char := cs.map Char.toLower

theorem toNat_lt_of_isNameChar {c : Char} (h : isNameChar c = true) : c.toNat < 0x80 := by
  delta isNameChar Char.isAlphanum Char.isAlpha Char.isUpper Char.isLower Char.isDigit at h
  simp only [Bool.or_eq_true, Bool.and_eq_true, decide_eq_true_eq, beq_iff_eq] at h
  rcases h with (((⟨-, h⟩ | ⟨-, h⟩) | ⟨-, h⟩) | rfl) | rfl
  · exact lt_of_le_of_lt (show c.toNat ≤ 'Z'.toNat from h) (by decide)
  · exact lt_of_le_of_lt (show c.toNat ≤ 'z'.toNat from h) (by decide)
  · exact lt_of_le_of_lt (show c.toNat ≤ '9'.toNat from h) (by decide)
  · decide
  · decide

/-- The characters of a name stand for themselves in a host, letters for their small forms, and
none of them does anything else in a URL. -/
theorem canonicalChar?_of_isNameChar {c : Char} (h : isNameChar c = true) :
    canonicalChar? c = some [c.toLower] ∧ UInt8.ofNat c.toNat ≠ 0x25 ∧ c.toLower ≠ '.' := by
  have hlt := toNat_lt_of_isNameChar h
  revert h
  exact Text.forall_ascii hlt (by decide)

/-- A character of a name is no mark of a URL. -/
theorem plain_of_isNameChar {c : Char} (h : isNameChar c = true) :
    c ≠ ':' ∧ c ≠ '[' ∧ endsAuthority .web c = false ∧ c ≠ '@' ∧ 0x20 < c.toNat := by
  have hlt := toNat_lt_of_isNameChar h
  revert h
  exact Text.forall_ascii hlt (by decide)

/-- A letter is no digit in any form, and neither a slash nor a bracket. -/
theorem letter_of_isAlpha {c : Char} (h : c.isAlpha = true) :
    c.toLower.isDigit = false ∧ c.toLower ≠ '0' ∧ isDigitOf 10 c.toLower = false
      ∧ isSlash c = false ∧ c ≠ '[' := by
  have hname : isNameChar c = true := by simp [isNameChar, Char.isAlphanum, h]
  have hlt := toNat_lt_of_isNameChar hname
  revert h
  exact Text.forall_ascii hlt (by decide)

/-! ## A name as a host -/

/-- Bytes without a percent sign have no escapes. -/
theorem unescape_of_notMem {bytes : List UInt8} (h : 0x25 ∉ bytes) : unescape bytes = bytes := by
  fun_induction unescape bytes with
  | case1 => rfl
  | case2 => rfl
  | case3 => rfl
  | case4 b c rest byte hbyte ih => exact absurd List.mem_cons_self h
  | case5 b c rest hbyte ih => exact absurd List.mem_cons_self h
  | case6 a b c rest ha ih => rw [ih fun hmem => h (List.mem_cons_of_mem a hmem)]

/-- A part that does not begin with a zero is decimal. -/
theorem splitBase_cons {c : Char} (h : c ≠ '0') (cs : List Char) :
    splitBase (c :: cs) = (10, c :: cs) := by
  rw [splitBase.eq_def]
  split <;> simp_all

theorem mapM_canonicalChar? {cs : List Char} (h : ∀ c ∈ cs, isNameChar c = true) :
    cs.mapM canonicalChar? = some (cs.map fun c => [c.toLower]) := by
  induction cs with
  | nil => rfl
  | cons c cs ih =>
    obtain ⟨hc, hcs⟩ := List.forall_mem_cons.mp h
    rw [List.mapM_cons, (canonicalChar?_of_isNameChar hc).1, ih hcs]
    rfl

section Name

variable {cs : List Char} (h : IsHostName cs)
include h

theorem IsHostName.ne_nil : cs ≠ [] := by
  rintro rfl
  exact absurd h.1 (by decide)

theorem IsHostName.exists_letter : ∃ c rest, cs = c :: rest ∧ c.isAlpha = true := by
  obtain ⟨c, rest, rfl⟩ := List.exists_cons_of_ne_nil h.ne_nil
  exact ⟨c, rest, rfl, h.1⟩

theorem IsHostName.isNameChar_of_mem {c : Char} (hc : c ∈ cs) : isNameChar c = true :=
  List.all_eq_true.mp h.2 c hc

/-- There is no dot in a name. -/
theorem IsHostName.dotted_lowerName : dotted (lowerName cs) = [lowerName cs] := by
  refine List.splitOnP_eq_singleton fun c hc => ?_
  obtain ⟨d, hd, rfl⟩ := List.mem_map.mp hc
  exact beq_eq_false_iff_ne.mpr (canonicalChar?_of_isNameChar (h.isNameChar_of_mem hd)).2.2

/-- A name is the domain of its small letters, if this is in order. -/
theorem IsHostName.domain?_eq :
    domain? cs = if isValidLabel (lowerName cs) then some (lowerName cs) else none := by
  have hascii : ∀ c ∈ (String.ofList cs).toList, c.toNat < 0x80 := by
    rw [String.toList_ofList]
    exact fun c hc => toNat_lt_of_isNameChar (h.isNameChar_of_mem hc)
  have hpercent : (0x25 : UInt8) ∉ (String.ofList cs).toList.map fun c => UInt8.ofNat c.toNat := by
    rw [String.toList_ofList, List.mem_map]
    rintro ⟨c, hc, hbyte⟩
    exact (canonicalChar?_of_isNameChar (h.isNameChar_of_mem hc)).2.1 hbyte
  have hcanonical := mapM_canonicalChar? fun c hc => h.isNameChar_of_mem hc
  have hflatten : (cs.map fun c => [c.toLower]).flatten = lowerName cs := by
    rw [← List.flatMap_def, lowerName, List.map_eq_flatMap]
  rw [domain?, Text.toList_toUTF8_ascii hascii, unescape_of_notMem hpercent,
    Text.decodeUtf8_ascii hascii]
  have hne : (lowerName cs).isEmpty = false := by simpa [lowerName] using h.ne_nil
  simp only [String.toList_ofList, hcanonical, hflatten, hne, h.dotted_lowerName, bind,
    Option.bind_some, List.all_cons, List.all_nil, Bool.and_true, Bool.false_eq_true, if_false]

/-- A name does not look like a number. -/
theorem IsHostName.endsInNumber_lowerName : endsInNumber (lowerName cs) = false := by
  have hdotted := h.dotted_lowerName
  obtain ⟨c, rest, rfl, hc⟩ := h.exists_letter
  obtain ⟨hdigit, hzero, hdecimal, -, -⟩ := letter_of_isAlpha hc
  rw [lowerName, List.map_cons] at hdotted ⊢
  have hparts : hostParts (c.toLower :: rest.map Char.toLower)
      = [c.toLower :: rest.map Char.toLower] := by
    simp [hostParts, hdotted]
  have hpart : ipv4Part? (c.toLower :: rest.map Char.toLower) = none := by
    simp [ipv4Part?, splitBase_cons hzero, hdecimal]
  simp [endsInNumber, hparts, hpart, hdigit]

/-- As a host a name is read as it is, in small letters. -/
theorem IsHostName.webHost?_eq : webHost? cs
    = if isValidLabel (lowerName cs) then some (.domain (lowerName cs)) else none := by
  have hbracket : cs.head? ≠ some '[' := by
    obtain ⟨c, rest, rfl, hc⟩ := h.exists_letter
    exact fun heq => (letter_of_isAlpha hc).2.2.2.2 (Option.some.inj heq)
  rw [webHost?, if_neg hbracket, h.domain?_eq]
  split
  · simp [h.endsInNumber_lowerName]
  · rfl

end Name

/-! ## The part with the host -/

/-- What stands in a text up to where the part of a URL with the host ends. -/
def authorityPart (cs : List Char) : List Char := cs.takeWhile fun c => !endsAuthority .web c

/-- A blank or a control, which does not count at the edges of a URL. -/
def isEdge (c : Char) : Bool := c.toNat ≤ 0x20

/-- Neither a line end nor a tab. -/
def isKept (c : Char) : Bool := c != '\t' && c != '\n' && c != '\r'

/-- A text without the blanks and controls at its end, and without line ends and tabs. -/
def stripEnd (cs : List Char) : List Char := (cs.rdropWhile isEdge).filter isKept

theorem isKept_of_not_isEdge {c : Char} (h : isEdge c = false) : isKept c = true := by
  have hne : ∀ d, isEdge d = true → c ≠ d := fun d hd heq => by simp [← heq, h] at hd
  simp [isKept, hne '\t' (by decide), hne '\n' (by decide), hne '\r' (by decide)]

/-- Behind a text without blanks and controls, only the end is stripped. -/
theorem strip_append {front : List Char} (hne : front ≠ [])
    (hfront : ∀ c ∈ front, isEdge c = false) (cs : List Char) :
    strip (front ++ cs) = front ++ stripEnd cs := by
  have hedge : ∀ {xs : List Char}, xs ≠ [] → (∀ c ∈ xs, isEdge c = false) → ∀ ys,
      (xs ++ ys).dropWhile isEdge = xs ++ ys := by
    intro xs hxs hedge ys
    obtain ⟨c, rest, rfl⟩ := List.exists_cons_of_ne_nil hxs
    exact List.dropWhile_cons_of_neg (by simp [hedge c List.mem_cons_self])
  have hend : (front ++ cs).rdropWhile isEdge = front ++ cs.rdropWhile isEdge := by
    have hkept : front.reverse.dropWhile isEdge = front.reverse := by
      have hreverse := hedge (List.reverse_ne_nil_iff.mpr hne)
        (fun c hc => hfront c (List.mem_reverse.mp hc)) []
      rwa [List.append_nil] at hreverse
    rw [List.rdropWhile, List.reverse_append, List.dropWhile_append, hkept, List.rdropWhile]
    split
    · rename_i hnil
      rw [List.isEmpty_iff.mp hnil, List.reverse_reverse, List.reverse_nil, List.append_nil]
    · rw [List.reverse_append, List.reverse_reverse]
  have hfilter : front.filter isKept = front :=
    List.filter_eq_self.mpr fun c hc => isKept_of_not_isEdge (hfront c hc)
  have hstrip : strip (front ++ cs)
      = (((front ++ cs).dropWhile isEdge).rdropWhile isEdge).filter isKept := rfl
  rw [hstrip, hedge hne hfront, hend, List.filter_append, hfilter, stripEnd]

/-- What is stripped puts no at sign into the part with the host, and takes none out. -/
theorem at_mem_authorityPart_stripEnd {cs : List Char} :
    '@' ∈ authorityPart (stripEnd cs) ↔ '@' ∈ authorityPart cs := by
  have hkept : ∀ c, (!isKept c || !endsAuthority .web c) = !endsAuthority .web c := by
    intro c
    by_cases hc : isKept c = true
    · rw [hc]
      rfl
    · have hcases : c = '\t' ∨ c = '\n' ∨ c = '\r' := by
        by_contra hne
        push Not at hne
        exact hc (by simp [isKept, hne])
      rcases hcases with rfl | rfl | rfl <;> rfl
  -- the text is what stays and, behind it, blanks and controls
  have hsplit : cs.rdropWhile isEdge ++ cs.rtakeWhile isEdge = cs := by
    rw [List.rdropWhile, List.rtakeWhile, ← List.reverse_append, List.takeWhile_append_dropWhile,
      List.reverse_reverse]
  have hblank : '@' ∉ cs.rtakeWhile isEdge := fun hmem =>
    absurd (List.mem_rtakeWhile_imp hmem) (by decide)
  rw [authorityPart, stripEnd, List.takeWhile_filter, funext hkept, List.mem_filter]
  conv_rhs => rw [authorityPart, ← hsplit, List.takeWhile_append]
  generalize cs.rdropWhile isEdge = stays
  generalize cs.rtakeWhile isEdge = blank at hblank
  split
  · rename_i hall
    have hself : stays.takeWhile (fun c => !endsAuthority .web c) = stays :=
      (List.takeWhile_prefix _).eq_of_length hall
    have hnone : '@' ∉ blank.takeWhile fun c => !endsAuthority .web c := fun hmem =>
      hblank ((List.takeWhile_sublist _).subset hmem)
    simp [hself, hnone, isKept]
  · simp [isKept]

/-- What a host, a port and a user make a URL of. -/
theorem of_authority? {scheme cs : List Char} {u : Url} (h : authority? .web scheme cs = some u) :
    u.userinfo = (splitUserinfo .web cs).1.getD []
      ∧ ∃ host, webHost? (splitHost .web false (splitUserinfo .web cs).2).1 = some host
        ∧ u.host = some host := by
  rw [authority?] at h
  simp only [beq_self_eq_true, Bool.and_true, if_true] at h
  split at h
  · exact nomatch h
  · rename_i hname
    simp only [Bool.or_eq_true, not_or, Bool.not_eq_true] at hname
    obtain ⟨host, hhost, h⟩ := Option.bind_eq_some_iff.mp h
    obtain ⟨port, -, h⟩ := Option.bind_eq_some_iff.mp h
    obtain rfl := Option.some.inj h
    exact ⟨rfl, host, hhost, by simp [hname.2]⟩

/-- A text without marks of its own is a host up to the colon. -/
theorem splitHost_append {cs : List Char} (h : ∀ c ∈ cs, isNameChar c = true) (tail : List Char) :
    splitHost .web false (cs ++ ':' :: tail) = (cs, ':' :: tail) := by
  induction cs with
  | nil => rfl
  | cons c cs ih =>
    obtain ⟨hc, hcs⟩ := List.forall_mem_cons.mp h
    obtain ⟨hcolon, hbracket, hends, -⟩ := plain_of_isNameChar hc
    have hstop : ((c == ':' && !false) || endsAuthority .web c) = false := by simp [hcolon, hends]
    have hopen : (c == '[' || (false && c != ']')) = false := by simp [hbracket]
    rw [List.cons_append, splitHost, hstop, if_neg Bool.false_ne_true, hopen, ih hcs]

/-- What stands before the last at sign of the part with the host is the user. -/
theorem splitUserinfo_of_split {cs user host : List Char} (hat : '@' ∉ host)
    (h : authorityPart cs = user ++ '@' :: host) :
    (splitUserinfo .web cs).1 = some user := by
  have hmem : (user ++ '@' :: host).contains '@' = true := by simp
  have htake : (user ++ '@' :: host).reverse.takeWhile (· ≠ '@') = host.reverse := by
    rw [List.reverse_append, List.reverse_cons, List.append_assoc, List.takeWhile_append_of_pos,
      List.singleton_append, List.takeWhile_cons_of_neg (by simp), List.append_nil]
    exact fun c hc => decide_eq_true fun heq => hat (heq ▸ List.mem_reverse.mp hc)
  have hlength : (user ++ '@' :: host).length - host.length - 1 = user.length := by
    rw [List.length_append, List.length_cons]
    omega
  have hregion : cs.takeWhile (fun c => !endsAuthority .web c) = user ++ '@' :: host := h
  rw [splitUserinfo, hregion, if_pos hmem, htake, List.reverse_reverse]
  dsimp only
  rw [hlength, List.take_left]

section Address

variable {cs tail : List Char} (h : IsHostName cs) {scheme : List Char} {u : Url}
include h

/-- The part with the host goes on behind a name and a colon. -/
theorem authorityPart_name :
    authorityPart (cs ++ ':' :: tail) = cs ++ ':' :: authorityPart tail := by
  rw [authorityPart, List.takeWhile_append_of_pos, List.takeWhile_cons_of_pos (by decide)]
  · rfl
  · exact fun c hc => by simp [(plain_of_isNameChar (h.isNameChar_of_mem hc)).2.2.1]

/-- Without an at sign the name is the host, and there is no user. -/
theorem authority?_of_notMem (hat : '@' ∉ authorityPart tail)
    (hu : authority? .web scheme (cs ++ ':' :: tail) = some u) :
    u.host = some (.domain (lowerName cs)) ∧ u.userinfo = [] := by
  have hnone : ¬ (authorityPart (cs ++ ':' :: tail)).contains '@' = true := by
    rw [authorityPart_name h, List.contains_iff_mem, List.mem_append, List.mem_cons]
    rintro (hmem | heq | hmem)
    · exact (plain_of_isNameChar (h.isNameChar_of_mem hmem)).2.2.2.1 rfl
    · exact absurd heq (by decide)
    · exact hat hmem
  have hsplit : splitUserinfo .web (cs ++ ':' :: tail) = (none, cs ++ ':' :: tail) := if_neg hnone
  obtain ⟨huser, host, hhost, heq⟩ := of_authority? hu
  rw [hsplit] at huser hhost
  rw [splitHost_append fun c hc => h.isNameChar_of_mem hc, h.webHost?_eq] at hhost
  split at hhost
  · rw [heq, ← hhost]
    exact ⟨rfl, huser⟩
  · exact nomatch hhost

/-- With one the name is the beginning of the user. -/
theorem authority?_of_mem (hat : '@' ∈ authorityPart tail)
    (hu : authority? .web scheme (cs ++ ':' :: tail) = some u) :
    cs ++ [':'] <+: u.userinfo := by
  obtain ⟨host, user, hreverse, hlast⟩ :=
    List.eq_append_cons_of_mem (List.mem_reverse.mpr hat)
  have hpart : authorityPart (cs ++ ':' :: tail)
      = (cs ++ ':' :: user.reverse) ++ '@' :: host.reverse := by
    rw [authorityPart_name h, ← List.reverse_reverse (authorityPart tail), hreverse]
    simp
  have huser := splitUserinfo_of_split (fun hmem => hlast (List.mem_reverse.mp hmem)) hpart
  rw [(of_authority? hu).1, huser, Option.getD_some]
  exact ⟨user.reverse, by simp⟩

end Address

/-! ## Addresses -/

/-- The part of an address behind its scheme. -/
theorem readChars?_http {cs : List Char} (h : IsHostName cs) (tail : List Char) :
    readChars? ("http://".toList ++ cs ++ ':' :: tail)
      = authority? .web "http".toList (cs ++ ':' :: stripEnd tail) := by
  have hlead : "http://".toList = ['h', 't', 't', 'p', ':', '/', '/'] := rfl
  have hhttp : ∀ c ∈ ['h', 't', 't', 'p', ':', '/', '/'], isEdge c = false := by
    simp [isEdge]
  have hvisible : ∀ c ∈ ['h', 't', 't', 'p', ':', '/', '/'] ++ cs ++ [':'], isEdge c = false := by
    intro c hc
    rcases List.mem_append.mp hc with hc | hc
    · rcases List.mem_append.mp hc with hc | hc
      · exact hhttp c hc
      · obtain ⟨-, -, -, -, hlow⟩ := plain_of_isNameChar (h.isNameChar_of_mem hc)
        simpa [isEdge] using hlow
    · obtain rfl := List.mem_singleton.mp hc
      rfl
  have hstrip : strip ("http://".toList ++ cs ++ ':' :: tail)
      = ['h', 't', 't', 'p', ':', '/', '/'] ++ (cs ++ ':' :: stripEnd tail) := by
    have happend := strip_append (by simp) hvisible tail
    simpa [hlead] using happend
  have hscheme : splitScheme? (['h', 't', 't', 'p', ':', '/', '/'] ++ (cs ++ ':' :: stripEnd tail))
      = some ("http".toList, ['/', '/'] ++ (cs ++ ':' :: stripEnd tail)) := rfl
  have hslashes : (['/', '/'] ++ (cs ++ ':' :: stripEnd tail)).dropWhile isSlash
      = cs ++ ':' :: stripEnd tail := by
    obtain ⟨c, rest, rfl, hc⟩ := h.exists_letter
    obtain ⟨-, -, -, hslash, -⟩ := letter_of_isAlpha hc
    have hboth : ∀ c ∈ ['/', '/'], isSlash c = true := by simp [isSlash]
    rw [List.dropWhile_append_of_pos hboth, List.cons_append,
      List.dropWhile_cons_of_neg (by simp [hslash])]
  rw [readChars?, hstrip, hscheme, Option.bind_eq_bind, Option.bind_some]
  have hkind : kindOf "http".toList = .web := by decide
  dsimp only
  rw [hkind]
  dsimp only
  rw [hslashes]

/-- A URL is a text with an encoding, and it is read from its characters. -/
theorem read?_eq_some_iff {text : String} {u : Url} :
    read? text = some u ↔ Text.isUnicode text ∧ readChars? text.toList = some u := by
  rw [read?, Option.ite_none_right_eq_some]

theorem isUnicode_of_read? {text : String} (h : (read? text).isSome = true) :
    Text.isUnicode text := by
  obtain ⟨u, hu⟩ := Option.isSome_iff_exists.mp h
  exact (read?_eq_some_iff.mp hu).1

end ComposeNix.Url
