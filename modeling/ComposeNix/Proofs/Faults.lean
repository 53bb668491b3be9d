import ComposeNix.CommandLine.Run
import ComposeNix.Proofs.Conversion
import ComposeNix.Proofs.Yaml.Lexer
import ComposeNix.Proofs.Yaml.Reader

/-!
# Faults that nobody reports

A fault of a conversion is reported, but for two kinds (`exists_unreported_iff`).  An address may
have no encoding, and then there is no report on it, be it the address of a rule that is given or
that of a route in the labels of a service.  And loading the text may meet a fault that nobody
foresees.  Such a fault lies in one of two things that somebody has to write out: an escape for a
number beyond all characters, or a tag.  The nodes of a text without tags have the tags that their
forms give them, and the readings of these tags are made for what they meet.
-/

namespace ComposeNix

namespace Yaml

/-! ## Faults in loading a text -/

/-- The one fault of form that is not foreseen. -/
theorem unforeseen_form_iff {fault : FormFault} :
    (Fault.form fault).grade = .unforeseen
      ↔ ∃ code, greatestNumber < code ∧ fault = .notCodePoint code := by
  cases fault with
  | notCodePoint code =>
    simp only [Fault.grade, FormFault.notCodePoint.injEq, exists_eq_right']
    split <;> simp <;> omega
  | _ => simp [Fault.grade]

/-- A token of a text is untagged unless it is a tag. -/
theorem TokenKind.Scanned.untagged {kind : TokenKind} (h : kind.Scanned)
    (htag : ∀ name, kind ≠ .tag name) : kind.Untagged := by
  cases kind with
  | tag name => exact absurd rfl (htag name)
  | scalar content plain =>
    cases plain with
    | false => trivial
    | true => exact h.ends
  | _ => trivial

/-- Without tags, a document has a value or fails only as foreseen. -/
theorem foreseen_value_of_forall_ne_tag {text : List Char}
    (htag : ∀ t ∈ (Tokens.ofText text).tokens, ∀ name, t.kind ≠ .tag name) {d : Document}
    (hd : Document.ofTokens (.ofText text) = .ok (some d)) :
    Foreseen (fun _ => True) d.value := by
  have huntagged := untagged_ofTokens fun t ht =>
    (Tokens.scanned_ofText text t ht).untagged (htag t ht)
  rw [hd] at huntagged
  exact Document.foreseen_value (huntagged d rfl)

/-- A fault that nobody foresees comes from an escape or from a tag. -/
theorem escape_or_tag_of_unforeseen {text : List Char} {fault : Fault}
    (h : load text = .error fault) (hgrade : fault.grade = .unforeseen) :
    (∃ code, greatestNumber < code ∧ fault = .form (.notCodePoint code))
      ∨ ∃ t ∈ (Tokens.ofText text).tokens, ∃ name, t.kind = .tag name := by
  rw [or_iff_not_imp_right]
  intro htag
  push Not at htag
  rw [load] at h
  cases hdocument : Document.ofTokens (.ofText text) with
  | error cause =>
    rw [hdocument] at h
    obtain rfl := Except.error.inj h
    obtain ⟨code, hcode, rfl⟩ := unforeseen_form_iff.mp hgrade
    exact ⟨code, hcode, rfl⟩
  | ok d? =>
    rw [hdocument] at h
    cases d? with
    | none => exact nomatch h
    | some d =>
      have hforeseen := foreseen_value_of_forall_ne_tag htag hdocument
      have hvalue : d.value = .error fault := h
      rw [hvalue] at hforeseen
      exact absurd hgrade hforeseen

end Yaml

/-! ## Faults of a conversion -/

open CommandLine (isReported)

/-- A fault with the manifest is not reported exactly if the text cannot be loaded, and nobody
foresees why. -/
theorem not_isReported_badManifest_iff {cause : ManifestFault} :
    isReported (.badManifest cause) = false
      ↔ ∃ text fault, cause = .unreadable text fault ∧ fault.grade = .unforeseen := by
  cases cause with
  | unreadable text fault => simp [isReported]
  | noServices => simp [isReported]
  | invalid refusal => simp [isReported]

/-- A fault with a rule is not reported exactly if there is no report on its address. -/
theorem not_isReported_badRule_iff {bad : RoutingRule.Bad} :
    isReported (.badRule bad) = false ↔ ∃ fault, bad.fault = .unencodable fault := by
  obtain ⟨place, fault⟩ := bad
  cases fault <;> simp [isReported]

/-- When a conversion fails and nobody reports why.  The first rule that could not be read has an
address that has no encoding; or all rules were read, and then either loading the text with its
variables replaced meets a fault that nobody foresees, or the labels of some service give a route a
host and an address that has no encoding.  Where a fault is not foreseen, an escape names a number
beyond all that a character could be asked for, or there is a tag. -/
theorem exists_unreported_iff (text : String) (backend : Backend) (rules : List Value)
    (context : Option Template.Context) :
    ((∃ fault, (convert text (.str backend.name) rules context).1 = .error fault
        ∧ isReported fault = false)
      ↔ (∃ place fault, RoutingRule.ofValues rules = .error ⟨place, .unencodable fault⟩)
        ∨ (∃ given, RoutingRule.ofValues rules = .ok given)
          ∧ ((∃ fault, Yaml.load (Manifest.replaceVariables context text).1.toList = .error fault
              ∧ fault.grade = .unforeseen)
            ∨ ∃ m, (Manifest.ofText context text).1 = .ok m ∧ ∃ e ∈ m.services,
                ∃ d ∈ Routing.drafts e.1 (e.2.labels.getD []), d.2.Breaks))
    ∧ ∀ chars fault, Yaml.load chars = .error fault → fault.grade = .unforeseen →
        (∃ code, Yaml.greatestNumber < code ∧ fault = .form (.notCodePoint code))
        ∨ ∃ t ∈ (Yaml.Tokens.ofText chars).tokens, ∃ name, t.kind = .tag name := by
  refine ⟨?_, fun chars fault => Yaml.escape_or_tag_of_unforeseen⟩
  constructor
  · rintro ⟨fault, hfault, hreported⟩
    rcases (convert_eq_error_iff backend).mp hfault with
      ⟨⟨place, cause⟩, hbad, rfl⟩
      | ⟨hrules, ⟨cause, hcause, rfl⟩ | ⟨m, hm, cause, ⟨_, hbreak⟩, rfl⟩⟩
    · obtain ⟨fault, rfl⟩ := not_isReported_badRule_iff.mp hreported
      exact Or.inl ⟨place, fault, hbad⟩
    · obtain ⟨chars, fault, rfl, hgrade⟩ := not_isReported_badManifest_iff.mp hreported
      rw [Manifest.fst_ofText] at hcause
      obtain ⟨-, hload⟩ := Manifest.ofPlainText_unreadable_iff.mp hcause
      exact Or.inr ⟨hrules, Or.inl ⟨fault, hload, hgrade⟩⟩
    · have hbroken : m.break?.isSome = true := by rw [hbreak]; rfl
      exact Or.inr ⟨hrules, Or.inr ⟨m, hm, Manifest.isSome_break?_iff.mp hbroken⟩⟩
  · rintro (⟨place, fault, hbad⟩ | ⟨hrules, ⟨fault, hload, hgrade⟩ | ⟨m, hm, hbreaks⟩⟩)
    · exact ⟨_, (convert_eq_error_iff backend).mpr (Or.inl ⟨_, hbad, rfl⟩), rfl⟩
    · have hcause := Manifest.ofPlainText_unreadable_iff.mpr ⟨rfl, hload⟩
      rw [← Manifest.fst_ofText] at hcause
      exact ⟨_, (convert_eq_error_iff backend).mpr (Or.inr ⟨hrules, Or.inl ⟨_, hcause, rfl⟩⟩),
        not_isReported_badManifest_iff.mpr ⟨_, fault, rfl, hgrade⟩⟩
    · obtain ⟨⟨broken, fault⟩, hbreak⟩ :=
        Option.isSome_iff_exists.mp (Manifest.isSome_break?_iff.mpr hbreaks)
      exact ⟨_, (convert_eq_error_iff backend).mpr
        (Or.inr ⟨hrules, Or.inr ⟨m, hm, fault, ⟨broken, hbreak⟩, rfl⟩⟩), rfl⟩

/-- A manifest with a text under the tag of truth values that is no word for one. -/
def notTruth : String := "services:\n  web:\n    privileged: !!bool maybe\n"

/-- Nobody reports why the conversion of this manifest fails. -/
theorem exists_unreported_notTruth : ∃ fault,
    (convert notTruth (.str "docker") [] none).1 = .error fault ∧ isReported fault = false := by
  have hfails : (match (convert notTruth (.str "docker") [] none).1 with
      | .error fault => isReported fault
      | .ok _ => true) = false := by decide +kernel
  cases hconvert : (convert notTruth (.str "docker") [] none).1 with
  | error fault =>
    rw [hconvert] at hfails
    exact ⟨fault, rfl, hfails⟩
  | ok module =>
    rw [hconvert] at hfails
    exact nomatch hfails

end ComposeNix
