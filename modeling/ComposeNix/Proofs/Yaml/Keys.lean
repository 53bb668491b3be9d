import ComposeNix.Proofs.Outcome
import ComposeNix.Proofs.Value.Lookup
import ComposeNix.Yaml.Load
import Mathlib.Data.List.Nodup

/-!
# The keys of a loaded mapping

A mapping takes a value under the key that is the same, if there is one.  So no mapping of a loaded
document has the same text for two of its keys, however deep it stands, also where the document
refers back to a collection from inside (`KeysApart`, `keysApart_load`).
-/

namespace ComposeNix

namespace Value

/-! ## Texts as keys -/

/-- The text that a key is. -/
def keyText? : Value → Option String
  | .str s => some s
  | _ => none

/-- The keys of a mapping that are texts. -/
def textKeys (es : List (Value × Value)) : List String := es.filterMap fun e => keyText? e.1

theorem keyText?_eq_some_iff {k : Value} {s : String} : keyText? k = some s ↔ k = .str s := by
  cases k <;> simp [keyText?]

theorem textKeys_cons (e : Value × Value) (es : List (Value × Value)) :
    textKeys (e :: es) = (keyText? e.1).toList ++ textKeys es := by
  rw [textKeys, List.filterMap_cons]
  cases keyText? e.1 <;> rfl

theorem mem_textKeys_insert {key value : Value} {es : List (Value × Value)} {s : String}
    (h : s ∈ textKeys (insert key value es)) : s ∈ textKeys es ∨ keyText? key = some s := by
  induction es with
  | nil =>
    rw [insert, textKeys_cons, List.mem_append, Option.mem_toList] at h
    exact h.symm.imp_left id
  | cons e es ih =>
    obtain ⟨k, v⟩ := e
    rw [insert] at h
    split at h
    · exact Or.inl h
    · rw [textKeys_cons, List.mem_append] at h ⊢
      rcases h with h | h
      · exact Or.inl (Or.inl h)
      · exact (ih h).imp_left Or.inr

theorem nodup_textKeys_insert (key value : Value) {es : List (Value × Value)}
    (h : (textKeys es).Nodup) : (textKeys (insert key value es)).Nodup := by
  induction es with
  | nil =>
    rw [insert, textKeys_cons]
    cases keyText? key with
    | none => exact List.nodup_nil
    | some s => exact List.nodup_singleton s
  | cons e es ih =>
    obtain ⟨k, v⟩ := e
    rw [insert]
    split
    · exact h
    · next hsame =>
      rw [textKeys_cons] at h ⊢
      cases hk : keyText? k with
      | none =>
        rw [hk] at h
        exact ih h
      | some s =>
        rw [hk] at h
        obtain ⟨hs, hes⟩ := List.nodup_cons.mp h
        refine List.nodup_cons.mpr ⟨fun hmem => ?_, ih hes⟩
        -- A new text would have been the key that is there.
        have hkey := (mem_textKeys_insert hmem).resolve_left hs
        rw [keyText?_eq_some_iff] at hk hkey
        exact hsame (by simp [hk, hkey, sameKey])

/-! ## Mappings inside a value -/

mutual

/-- No mapping in the value has the same text for two of its keys. -/
def KeysApart : Value → Prop
  | .list items => AllApart items
  | .map entries => (textKeys entries).Nodup ∧ EntriesApart entries
  | .set members => AllApart members
  | .pair first second => KeysApart first ∧ KeysApart second
  | .cyclic _ body => KeysApart body
  | _ => True
termination_by structural v => v

/-- `KeysApart` of every value of a row. -/
def AllApart : List Value → Prop
  | [] => True
  | v :: vs => KeysApart v ∧ AllApart vs
termination_by structural vs => vs

/-- `KeysApart` of the keys and values of a row of entries. -/
def EntriesApart : List (Value × Value) → Prop
  | [] => True
  | e :: es => EntryApart e ∧ EntriesApart es
termination_by structural es => es

/-- `KeysApart` of the key and the value of an entry. -/
def EntryApart : Value × Value → Prop
  | (k, v) => KeysApart k ∧ KeysApart v
termination_by structural e => e

end

theorem allApart_iff {vs : List Value} : AllApart vs ↔ ∀ v ∈ vs, v.KeysApart := by
  induction vs with
  | nil => simp [AllApart]
  | cons v vs ih => rw [AllApart, ih, List.forall_mem_cons]

theorem entriesApart_iff {es : List (Value × Value)} :
    EntriesApart es ↔ ∀ e ∈ es, e.1.KeysApart ∧ e.2.KeysApart := by
  induction es with
  | nil => simp [EntriesApart]
  | cons e es ih => rw [EntriesApart, ih, List.forall_mem_cons, EntryApart]

theorem keysApart_insert {key value : Value} {es : List (Value × Value)}
    (h : (Value.map es).KeysApart) (hkey : key.KeysApart) (hvalue : value.KeysApart) :
    (Value.map (insert key value es)).KeysApart := by
  refine ⟨nodup_textKeys_insert key value h.1, ?_⟩
  have hes := h.2
  clear h
  induction es with
  | nil => exact ⟨⟨hkey, hvalue⟩, trivial⟩
  | cons e es ih =>
    obtain ⟨k, v⟩ := e
    rw [insert]
    split
    · exact ⟨⟨hes.1.1, hvalue⟩, hes.2⟩
    · exact ⟨hes.1, ih hes.2⟩

theorem keysApart_foldl_insert {entries : List (Value × Value)}
    (h : ∀ e ∈ entries, e.1.KeysApart ∧ e.2.KeysApart) :
    (Value.map (entries.foldl (fun es (k, v) => insert k v es) [])).KeysApart := by
  have hfold : ∀ es, (Value.map es).KeysApart →
      (Value.map (entries.foldl (fun es (k, v) => insert k v es) es)).KeysApart := by
    induction entries with
    | nil => exact fun es hes => hes
    | cons e entries ih =>
      intro es hes
      obtain ⟨⟨hkey, hvalue⟩, hrest⟩ := List.forall_mem_cons.mp h
      exact ih hrest _ (keysApart_insert hes hkey hvalue)
  exact hfold [] ⟨List.nodup_nil, trivial⟩

/-! ## References back -/

theorem textKeys_closeEntries (node n : Nat) (body : Value) (es : List (Value × Value)) :
    textKeys (closeEntries node (.cyclic n body) es) = textKeys es := by
  have hkey : ∀ k, keyText? (close node (.cyclic n body) k) = keyText? k := by
    intro k
    cases k with
    | cyclic m inner =>
      rw [close]
      split <;> rfl
    | back m =>
      rw [close]
      split <;> rfl
    | _ => rfl
  induction es with
  | nil => rfl
  | cons e es ih =>
    obtain ⟨k, v⟩ := e
    rw [closeEntries, textKeys_cons, textKeys_cons, ih, closeEntry, hkey]

section Close

variable {node n : Nat} {body : Value}

mutual

/-- The mappings inside a collection stay as they are when it is put in the place of references. -/
theorem keysApart_close (hbody : KeysApart body) :
    ∀ v : Value, KeysApart v → KeysApart (close node (.cyclic n body) v)
  | .list items, h => allApart_closeAll hbody items h
  | .map entries, h =>
    ⟨(textKeys_closeEntries node n body entries).symm ▸ h.1,
      entriesApart_closeEntries hbody entries h.2⟩
  | .set members, h => allApart_closeAll hbody members h
  | .pair first second, h => ⟨keysApart_close hbody first h.1, keysApart_close hbody second h.2⟩
  | .cyclic m inner, h => by
    rw [close]
    split
    · exact h
    · exact keysApart_close hbody inner h
  | .back m, h => by
    rw [close]
    split
    · exact hbody
    · exact h
  | .null, _ => trivial
  | .bool _, _ => trivial
  | .int _, _ => trivial
  | .float _, _ => trivial
  | .str _, _ => trivial
  | .bytes _, _ => trivial
  | .time _, _ => trivial
termination_by structural v => v

theorem allApart_closeAll (hbody : KeysApart body) :
    ∀ vs : List Value, AllApart vs → AllApart (closeAll node (.cyclic n body) vs)
  | [], _ => trivial
  | v :: vs, h => ⟨keysApart_close hbody v h.1, allApart_closeAll hbody vs h.2⟩
termination_by structural vs => vs

theorem entriesApart_closeEntries (hbody : KeysApart body) :
    ∀ es : List (Value × Value), EntriesApart es →
      EntriesApart (closeEntries node (.cyclic n body) es)
  | [], _ => trivial
  | e :: es, h => ⟨entryApart_closeEntry hbody e h.1, entriesApart_closeEntries hbody es h.2⟩
termination_by structural es => es

theorem entryApart_closeEntry (hbody : KeysApart body) :
    ∀ e : Value × Value, EntryApart e → EntryApart (closeEntry node (.cyclic n body) e)
  | (k, v), h => ⟨keysApart_close hbody k h.1, keysApart_close hbody v h.2⟩
termination_by structural e => e

end

end Close

theorem KeysApart.unfold {v : Value} (h : v.KeysApart) : v.unfold.KeysApart := by
  cases v with
  | cyclic n body =>
    have hbody : body.KeysApart := h
    exact keysApart_close hbody body hbody
  | _ => exact h

theorem KeysApart.map_of_entries? {v : Value} {es : List (Value × Value)} (h : v.KeysApart)
    (hes : v.entries? = some es) : (Value.map es).KeysApart := by
  have hunfold := h.unfold
  rw [entries?] at hes
  split at hes
  · next entries hentries =>
    obtain rfl := Option.some.inj hes
    exact hentries ▸ hunfold
  · cases hes

/-- What stands under a text in a mapping. -/
theorem KeysApart.of_lookup {es : List (Value × Value)} (h : (Value.map es).KeysApart)
    {key : String} {w : Value} (hw : Value.lookup key es = some w) : w.KeysApart := by
  exact (entriesApart_iff.mp h.2 _ (mem_of_lookup hw)).2

end Value

namespace Yaml

open Value (KeysApart)

/-! ## Scalars -/

/-- The values that are read are without such mappings. -/
abbrev Apart (x : Except Fault Value) : Prop := Ensures (fun _ => True) KeysApart x

theorem apart_bool (text : String) : Apart (Scalar.bool text) := by
  rw [Scalar.bool]
  split <;> trivial

theorem apart_float (text : String) : Apart (Scalar.float text) := by
  rw [Scalar.float]
  split
  · trivial
  · dsimp only
    refine Ensures.ite ?_ (Ensures.ite ?_ (Ensures.ite ?_ ?_))
    · trivial
    · trivial
    · refine (Ensures.any _).bind fun parts _ => ?_
      refine (Ensures.any _).bind fun x _ => ?_
      trivial
    · generalize (readFloat _).mapError Fault.number = read
      cases read <;> trivial

theorem apart_value (tag : Tag) (text : String) (place : Mark) :
    Apart (Scalar.value tag text place) := by
  cases tag with
  | bool => exact apart_bool text
  | int => exact (Ensures.any _).map fun _ _ => trivial
  | float => exact apart_float text
  | binary =>
    rw [Scalar.value]
    split <;> trivial
  | timestamp => exact (Ensures.any _).map fun _ _ => trivial
  | _ => trivial

namespace Document

variable (d : Document)

theorem apart_scalar (node : Node) : Apart (d.scalar node) := by
  unfold scalar
  split
  · exact apart_value _ _ _
  · trivial
  · trivial
  · trivial
  · trivial
  · refine (Ensures.any _).bind fun text _ => ?_
    split
    · trivial
    · exact apart_value _ _ _

theorem apart_asCollection {number : Option Nat} {body : Value} (h : body.KeysApart) :
    (asCollection number body).KeysApart := by
  cases number with
  | none => exact h
  | some n =>
    rw [asCollection]
    split
    · exact h
    · exact h

theorem apart_valueIn (depth : Nat) (inside : List Nat) (node : Node) :
    Apart (d.valueIn depth inside node) := by
  induction depth generalizing inside node with
  | zero => trivial
  | succ depth ih =>
    unfold valueIn
    generalize d.resolve node = node
    dsimp only
    split
    · exact d.apart_scalar node
    · cases node with
      | scalar tag text start => cases tag <;> trivial
      | «alias» anchor => trivial
      | sequence number tag items start =>
        dsimp only [Node.number?, Node.tag]
        split
        · trivial
        · split
          case h_1 =>
            exact (Ensures.mapM fun item _ => ih _ item).bind fun vs hvs =>
              apart_asCollection (Value.allApart_iff.mpr hvs)
          case h_2 | h_3 =>
            refine (Ensures.mapM fun item _ => ?_).bind fun vs hvs =>
              apart_asCollection (Value.allApart_iff.mpr hvs)
            split
            · exact (ih _ _).bind fun a ha => (ih _ _).bind fun b hb => ⟨ha, hb⟩
            · trivial
          case h_4 => rename_i heq; cases heq
          case h_5 => exact apart_asCollection trivial
      | mapping number tag entries start =>
        dsimp only [Node.number?, Node.tag]
        split
        · trivial
        · split
          case h_1 | h_2 | h_3 => rename_i heq; cases heq
          case h_4 =>
            refine (Ensures.any _).bind fun merged _ => ?_
            refine (Ensures.mapM (Q := fun e => e.1.KeysApart ∧ e.2.KeysApart)
              fun e _ => ?_).bind fun es hes => apart_asCollection ?_
            · exact (ih _ _).bind fun a ha => (ih _ _).bind fun b hb => ⟨ha, hb⟩
            · have hmap := Value.keysApart_foldl_insert hes
              split
              · refine Value.allApart_iff.mpr (List.forall_mem_map.mpr fun e he => ?_)
                exact (Value.entriesApart_iff.mp hmap.2 e he).1
              · exact hmap
          case h_5 => exact apart_asCollection trivial

end Document

/-- No mapping of a loaded document has the same text for two of its keys. -/
theorem keysApart_load {text : List Char} {v : Value} (h : load text = .ok v) : v.KeysApart := by
  have hload : Apart (load text) := by
    rw [load]
    refine (Ensures.any _).bind fun document? _ => ?_
    split
    · exact (Ensures.any _).bind fun _ _ => Document.apart_valueIn _ _ _ _
    · trivial
  rwa [h] at hload

end Yaml
end ComposeNix
