import ComposeNix.Compose.Service
import ComposeNix.Proofs.Outcome

/-!
# What is written out

The one thing that goes wrong in a field is a number that cannot be written out, and a field writes
out only part of what stands in it: of a list the items that are scalars, of a mapping of settings
the entries with a scalar for a value, of a port in long form at most four of its entries.  For
each reading, this part is a list of values, and the reading succeeds exactly if all of them are
`Value.Writable`.

A value can be written out unless one of the integers in it has too many digits
(`writable_of_integers`).
-/

namespace ComposeNix

/-- An integer is written out unless it is too long. -/
theorem succeeds_writeInteger {n : Int} :
    Succeeds (writeInteger n) ↔ (Nat.toDigits 10 n.natAbs).length ≤ digitLimit := by
  rw [writeInteger, ← Nat.not_lt]
  split
  · next h => exact iff_of_false (not_succeeds_error _) (not_not_intro h)
  · next h => exact iff_of_true (succeeds_ok _) h

namespace Value

/-- The value can be written out. -/
def Writable (v : Value) : Prop := Succeeds v.plainText

/-! ## Integers -/

mutual

/-- The integers in a value. -/
def integers : Value → List Int
  | .int n => [n]
  | .list items => integersOf items
  | .map entries => integersOfEntries entries
  | .set members => integersOf members
  | .pair first second => integers first ++ integers second
  | .cyclic _ body => integers body
  | _ => []
termination_by structural v => v

/-- The integers in a row of values. -/
def integersOf : List Value → List Int
  | [] => []
  | v :: vs => integers v ++ integersOf vs
termination_by structural vs => vs

/-- The integers in a row of entries. -/
def integersOfEntries : List (Value × Value) → List Int
  | [] => []
  | e :: es => integersOfEntry e ++ integersOfEntries es
termination_by structural es => es

/-- The integers in the key and in the value of an entry. -/
def integersOfEntry : Value × Value → List Int
  | (k, v) => integers k ++ integers v
termination_by structural e => e

end

mutual

/-- Nothing but an integer stands in the way of a literal. -/
theorem succeeds_literalIn (around : List (Nat × String)) :
    ∀ v : Value, (∀ n ∈ v.integers, Succeeds (writeInteger n)) → Succeeds (literalIn around v)
  | .null, _ => succeeds_ok _
  | .bool _, _ => succeeds_ok _
  | .int n, h => h n List.mem_cons_self
  | .float _, _ => succeeds_ok _
  | .str _, _ => succeeds_ok _
  | .bytes _, _ => succeeds_ok _
  | .time _, _ => succeeds_ok _
  | .list items, h => (succeeds_literalsIn around items h).bind fun _ => succeeds_pure _
  | .map entries, h => (succeeds_entriesIn around entries h).bind fun _ => succeeds_pure _
  | .set members, h => (succeeds_literalsIn around members h).bind fun _ => succeeds_pure _
  | .pair first second, h =>
    have h := List.forall_mem_append.mp h
    (succeeds_literalIn around first h.1).bind fun _ =>
      (succeeds_literalIn around second h.2).bind fun _ => succeeds_pure _
  | .cyclic node body, h => by
    rw [literalIn]
    split
    · exact succeeds_ok _
    · exact succeeds_literalIn _ body h
  | .back _, _ => succeeds_ok _
termination_by structural v => v

theorem succeeds_literalsIn (around : List (Nat × String)) :
    ∀ vs : List Value, (∀ n ∈ integersOf vs, Succeeds (writeInteger n)) →
      Succeeds (literalsIn around vs)
  | [], _ => succeeds_ok _
  | v :: vs, h =>
    have h := List.forall_mem_append.mp h
    (succeeds_literalIn around v h.1).bind fun _ =>
      (succeeds_literalsIn around vs h.2).bind fun _ => succeeds_pure _
termination_by structural vs => vs

theorem succeeds_entriesIn (around : List (Nat × String)) :
    ∀ es : List (Value × Value), (∀ n ∈ integersOfEntries es, Succeeds (writeInteger n)) →
      Succeeds (entriesIn around es)
  | [], _ => succeeds_ok _
  | e :: es, h =>
    have h := List.forall_mem_append.mp h
    (succeeds_entryIn around e h.1).bind fun _ =>
      (succeeds_entriesIn around es h.2).bind fun _ => succeeds_pure _
termination_by structural es => es

theorem succeeds_entryIn (around : List (Nat × String)) :
    ∀ e : Value × Value, (∀ n ∈ integersOfEntry e, Succeeds (writeInteger n)) →
      Succeeds (entryIn around e)
  | (k, v), h =>
    have h := List.forall_mem_append.mp h
    (succeeds_literalIn around k h.1).bind fun _ =>
      (succeeds_literalIn around v h.2).bind fun _ => succeeds_pure _
termination_by structural e => e

end

/-- A value whose integers are short enough can be written out. -/
theorem writable_of_integers {v : Value}
    (h : ∀ n ∈ v.integers, (Nat.toDigits 10 n.natAbs).length ≤ digitLimit) : v.Writable := by
  have hliteral : Succeeds v.literal :=
    succeeds_literalIn [] v fun n hn => succeeds_writeInteger.mpr (h n hn)
  cases v with
  | null | bool _ | str _ | time _ => exact succeeds_ok _
  | _ => exact hliteral

/-! ## Scalars and lists -/

/-- A scalar other than null. -/
def isText : Value → Bool
  | .null => false
  | v => v.isScalar

/-- Neither a scalar nor a reference. -/
def isCollection : Value → Bool
  | .list _ | .map _ | .set _ | .pair _ _ => true
  | _ => false

@[simp] theorem unfold_list (items : List Value) : (list items).unfold = list items := rfl

@[simp] theorem unfold_map (es : List (Value × Value)) : (map es).unfold = map es := rfl

@[simp] theorem unfold_str (s : String) : (str s).unfold = str s := rfl

theorem unfold_of_isText {v : Value} (h : v.isText = true) : v.unfold = v := by
  cases v with
  | cyclic node body => cases h
  | _ => rfl

theorem scalarText?_eq (v : Value) :
    v.scalarText? = if v.isText then v.plainText.map some else .ok none := by
  cases v <;> rfl

theorem succeeds_scalarText? {v : Value} :
    Succeeds v.scalarText? ↔ ∀ w ∈ [v].filter isText, w.Writable := by
  rw [scalarText?_eq]
  cases h : v.isText with
  | true => simp [h, Writable]
  | false => simp [h]

/-- The texts of a list are those of its scalars. -/
theorem itemTexts_eq (items : List Value) :
    itemTexts items = (items.filter isText).mapM plainText := by
  induction items with
  | nil => rfl
  | cons v vs ih =>
    rw [itemTexts, scalarText?_eq, List.filter_cons, ih]
    cases v.isText with
    | true =>
      rw [if_pos rfl, if_pos rfl, List.mapM_cons]
      cases v.plainText <;> rfl
    | false => rfl

/-- Items that are no texts leave no trace. -/
@[simp] theorem itemTexts_filter (items : List Value) :
    itemTexts (items.filter isText) = itemTexts items := by
  rw [itemTexts_eq, itemTexts_eq, List.filter_filter]
  simp

theorem succeeds_itemTexts {items : List Value} :
    Succeeds (itemTexts items) ↔ ∀ w ∈ items.filter isText, w.Writable := by
  rw [itemTexts_eq]
  exact succeeds_mapM

/-! ## Mappings -/

/-- The texts of a mapping are those of its entries with a scalar for a value. -/
theorem entryTexts_eq (es : List (Value × Value)) :
    entryTexts es = (es.filter fun e => e.2.isScalar).mapM fun e => do
      let key ← e.1.plainText
      let value ← e.2.plainText
      return (key, value) := by
  induction es with
  | nil => rfl
  | cons e es ih =>
    rw [entryTexts, List.filter_cons, ih]
    cases e.2.isScalar with
    | true =>
      rw [if_pos rfl, if_pos rfl, List.mapM_cons]
      cases e.1.plainText with
      | error fault => rfl
      | ok key => cases e.2.plainText <;> rfl
    | false => rfl

/-- Entries with a collection for a value leave no trace. -/
@[simp] theorem entryTexts_filter (es : List (Value × Value)) :
    entryTexts (es.filter fun e => e.2.isScalar) = entryTexts es := by
  rw [entryTexts_eq, entryTexts_eq, List.filter_filter]
  simp

theorem succeeds_entryTexts {es : List (Value × Value)} :
    Succeeds (entryTexts es)
      ↔ ∀ w ∈ (es.filter fun e => e.2.isScalar).flatMap fun e => [e.1, e.2], w.Writable := by
  rw [entryTexts_eq, succeeds_mapM, List.forall_mem_flatMap]
  refine forall₂_congr fun e _ => ?_
  rw [succeeds_bind fun key => succeeds_bind_pure]
  simp [Writable]

theorem succeeds_keyTexts {es : List (Value × Value)} :
    Succeeds (keyTexts es) ↔ ∀ w ∈ es.map Prod.fst, w.Writable := by
  rw [keyTexts, succeeds_mapM, List.forall_mem_map]
  rfl

end Value

/-! ## Ports and mounts -/

/-- What the published side of a port writes out. -/
def publishedWritten (es : Entries) : List Value :=
  match es.given? "published" with
  | none => []
  | some published => published :: (es.truthy? "host_ip").toList

/-- What a port in long form writes out. -/
def portWritten (es : Entries) : List Value :=
  match es.given? "target" with
  | none => []
  | some target => target :: (publishedWritten es ++ (es.truthy? "protocol").toList)

/-- What a mount in long form writes out. -/
def mountWritten (es : Entries) : List Value :=
  match es.truthy? "source", es.truthy? "target" with
  | some source, some target => [source, target]
  | _, _ => []

theorem succeeds_publishedPort (es : Entries) (target : String) :
    Succeeds (publishedPort es target) ↔ ∀ w ∈ publishedWritten es, w.Writable := by
  cases hpublished : es.given? "published" with
  | none => simp [publishedPort, publishedWritten, hpublished]
  | some published =>
    simp only [publishedPort, publishedWritten, hpublished, List.forall_mem_cons]
    refine succeeds_bind fun text => ?_
    cases es.truthy? "host_ip" with
    | none => simp
    | some address => exact succeeds_bind_pure.trans (by simp [Value.Writable])

theorem succeeds_portOfEntries (es : Entries) :
    Succeeds (portOfEntries es) ↔ ∀ w ∈ portWritten es, w.Writable := by
  cases htarget : es.given? "target" with
  | none => simp [portOfEntries, portWritten, htarget]
  | some target =>
    simp only [portOfEntries, portWritten, htarget, List.forall_mem_cons, List.forall_mem_append]
    refine succeeds_bind fun text => ?_
    rw [← succeeds_publishedPort es text]
    refine succeeds_bind fun port => ?_
    cases es.truthy? "protocol" with
    | none => simp
    | some protocol => exact succeeds_bind_pure.trans (by simp [Value.Writable])

theorem succeeds_mountOfEntries (es : Entries) :
    Succeeds (mountOfEntries es) ↔ ∀ w ∈ mountWritten es, w.Writable := by
  cases hsource : es.truthy? "source" with
  | none => simp [mountOfEntries, mountWritten, hsource]
  | some source =>
    cases htarget : es.truthy? "target" with
    | none => simp [mountOfEntries, mountWritten, hsource, htarget]
    | some target =>
      simp only [mountOfEntries, mountWritten, hsource, htarget]
      rw [succeeds_bind fun _ => succeeds_bind_pure]
      simp [Value.Writable]

/-- What an entry of a list of ports or mounts writes out. -/
def entryWritten (long : Entries → List Value) (v : Value) : List Value :=
  match v.unfold with
  | .map es => long es
  | .list _ | .null => []
  | _ => [v]

/-- An entry that a list of ports or mounts can have. -/
def isEntry (v : Value) : Bool :=
  match v.unfold with
  | .list _ | .null => false
  | _ => true

section Rows

variable {long : Entries → Except NumberFault (Option String)} {written : Entries → List Value}

theorem entryText_of_not_isEntry {v : Value} (h : isEntry v = false) :
    entryText long v = .ok none := by
  rw [isEntry] at h
  rw [entryText]
  split at h
  · next hv => rw [hv]
  · next hv => rw [hv]
  · cases h

/-- Entries that a list cannot have leave no trace. -/
theorem rows_filter (long : Entries → Except NumberFault (Option String))
    (items : List Value) : entryTexts long (items.filter isEntry) = entryTexts long items := by
  induction items with
  | nil => rfl
  | cons v vs ih =>
    rw [List.filter_cons]
    cases hv : isEntry v with
    | true =>
      rw [if_pos rfl, entryTexts, entryTexts, ih]
    | false =>
      rw [if_neg Bool.false_ne_true, ih, entryTexts, entryText_of_not_isEntry hv]
      rfl

theorem succeeds_entryText (hlong : ∀ es, Succeeds (long es) ↔ ∀ w ∈ written es, w.Writable)
    {v : Value} : Succeeds (entryText long v) ↔ ∀ w ∈ entryWritten written v, w.Writable := by
  rw [entryText, entryWritten]
  cases v.unfold with
  | map es => exact hlong es
  | list _ | null => simp
  | _ => simp [Value.Writable]

theorem succeeds_rows (hlong : ∀ es, Succeeds (long es) ↔ ∀ w ∈ written es, w.Writable)
    {items : List Value} :
    Succeeds (entryTexts long items) ↔ ∀ w ∈ items.flatMap (entryWritten written), w.Writable := by
  induction items with
  | nil => simp [entryTexts]
  | cons v vs ih =>
    rw [entryTexts, List.flatMap_cons, List.forall_mem_append, ← succeeds_entryText hlong, ← ih]
    refine succeeds_bind fun text? => ?_
    cases text? with
    | none => rfl
    | some s => exact succeeds_bind_pure

end Rows

/-! ## Yes and no -/

theorem succeeds_isYes {v : Value} : Succeeds (isYes v) ↔ v.Writable := by
  rw [isYes]
  exact succeeds_bind_pure

/-- How the literal of a collection can begin: with its bracket, or with the word for a set that is
empty. -/
def openings : List Char := ['[', '\x7b', '(', 's']

theorem head_literalIn (around : List (Nat × String)) {v : Value} (h : v.isCollection = true) :
    Ensures (fun _ => True) (fun s => ∃ c ∈ openings, s.toList.head? = some c)
      (Value.literalIn around v) := by
  cases v with
  | list items =>
    refine (Ensures.any _).bind fun inside _ => ?_
    exact ⟨'[', by decide, by simp⟩
  | map entries =>
    refine (Ensures.any _).bind fun inside _ => ?_
    exact ⟨'\x7b', by decide, by simp⟩
  | set members =>
    refine (Ensures.any _).bind fun inside _ => ?_
    cases inside with
    | nil => exact ⟨'s', by decide, rfl⟩
    | cons first rest => exact ⟨'\x7b', by decide, by simp⟩
  | pair first second =>
    refine (Ensures.any _).bind fun inside _ => (Ensures.any _).bind fun other _ => ?_
    exact ⟨'(', by decide, by simp⟩
  | _ => cases h

/-- Putting a collection in the place of references makes no collection of anything else. -/
theorem isCollection_of_close {node n : Nat} {body v : Value}
    (h : (Value.close node (.cyclic n body) v).isCollection = true) : v.isCollection = true := by
  cases v with
  | cyclic m inner =>
    rw [Value.close] at h
    split at h <;> cases h
  | back m =>
    rw [Value.close] at h
    split at h <;> cases h
  | list _ | map _ | set _ | pair _ _ => rfl
  | _ => exact h

theorem head_plainText {v : Value} (h : v.unfold.isCollection = true) :
    Ensures (fun _ => True) (fun s => ∃ c ∈ openings, s.toList.head? = some c)
      v.plainText := by
  cases v with
  | cyclic node body =>
    exact head_literalIn [(node, Value.ellipsis body)] (isCollection_of_close h)
  | list _ | map _ | set _ | pair _ _ => exact head_literalIn [] rfl
  | _ => cases h

/-- A text with such a beginning does not say yes. -/
theorem toLower_ne_true {c : Char} (hc : c ∈ openings) {cs : List Char}
    (hcs : cs.head? = some c) : (Text.toLower cs == "true".toList) = false := by
  obtain ⟨rest, rfl⟩ := List.head?_eq_some_iff.mp hcs
  have hlower : ∀ c ∈ openings, Text.lowerCase c = [c] ∧ c ≠ 't' := by
    simp [openings, Text.lowerCase]
  obtain ⟨hlower, hne⟩ := hlower c hc
  simp [Text.toLower, hlower, hne]

/-- A collection does not say yes. -/
theorem eq_false_of_isYes {v : Value} (hv : v.unfold.isCollection = true) {yes : Bool}
    (h : isYes v = .ok yes) : yes = false := by
  have hhead := head_plainText hv
  rw [isYes] at h
  obtain ⟨s, htext, h⟩ := bind_eq_ok_iff.mp h
  rw [htext] at hhead
  obtain ⟨c, hc, hs⟩ := hhead
  obtain rfl := Except.ok.inj h
  exact toLower_ne_true hc hs

end ComposeNix
