import ComposeNix.Proofs.Yaml.Untagged
import ComposeNix.Yaml.Node.Reader

/-!
# Reading untagged tokens

Tokens among which no tag stands make an untagged document.  The machine that reads them never
holds anything else: `Reader.Untagged` says so of every place where it keeps nodes, heads of
collections or properties, each part of a step keeps that up, and so does a whole step
(`untagged_step`) and the run over all tokens (`untagged_ofTokens`).
-/

namespace ComposeNix.Yaml

/-! ## What is untagged -/

/-- A token that is no tag.  The text of a plain scalar has no line feed at its end. -/
def TokenKind.Untagged : TokenKind → Prop
  | .tag _ => False
  | .scalar text true => text.toList.getLast? ≠ some '\n'
  | _ => True

/-- Properties without a tag. -/
structure Properties.Untagged (p : Properties) : Prop where
  written : p.written = none
  tag : p.tag = none

/-- A key that waits for its value is untagged. -/
def PairStage.Untagged : PairStage → Prop
  | .value node | .valueNode node _ => node.Untagged
  | _ => True

/-- A key that waits for its value is untagged. -/
def FlowPairStage.Untagged : FlowPairStage → Prop
  | .bareKey node | .value node | .valueNode node _ => node.Untagged
  | _ => True

/-- An open collection with the usual tag and untagged nodes. -/
def Frame.Untagged : Frame → Prop
  | .blockSequence head items _ => head.tag = .seq ∧ ∀ item ∈ items, item.Untagged
  | .looseSequence head items _ => head.tag = .seq ∧ ∀ item ∈ items, item.Untagged
  | .blockMapping head entries stage => head.tag = .map ∧ UntaggedEntries entries ∧ stage.Untagged
  | .flowSequence head items _ => head.tag = .seq ∧ ∀ item ∈ items, item.Untagged
  | .flowPair head stage => head.tag = .map ∧ stage.Untagged
  | .flowMapping head entries stage => head.tag = .map ∧ UntaggedEntries entries ∧ stage.Untagged

/-- The root of a phase is untagged. -/
def Phase.Untagged : Phase → Prop
  | .between root | .directives root _ _ _ | .done root => ∀ node ∈ root, node.Untagged
  | .closing root => root.Untagged
  | _ => True

/-- Everything that the machine holds is untagged. -/
structure Reader.Untagged (r : Reader) : Prop where
  phase : r.phase.Untagged
  frames : ∀ f ∈ r.frames, f.Untagged
  properties : ∀ p ∈ r.properties, p.Untagged
  anchored : ∀ e ∈ r.anchored, e.2.Untagged

namespace Reader

/-- A computation that leaves the machine untagged, if it does not fail. -/
abbrev KeepsUntagged : Except FormFault Reader → Prop := Ensures (fun _ => True) Untagged

variable {r : Reader}

/-! ## Completed nodes -/

theorem untagged_sequence {head : Head} (h : head.tag = .seq) {items : List Node}
    (hitems : ∀ item ∈ items, item.Untagged) :
    (Node.sequence head.number head.tag items.reverse head.start).Untagged := by
  rw [h]
  exact .sequence _ _ _ fun item hitem => hitems item (List.mem_reverse.mp hitem)

theorem untagged_mapping {head : Head} (h : head.tag = .map) {entries : List (Node × Node)}
    (hentries : UntaggedEntries entries) :
    (Node.mapping head.number head.tag entries.reverse head.start).Untagged := by
  rw [h]
  exact .mapping _ _ _ (fun e he => (hentries e (List.mem_reverse.mp he)).1)
    fun e he => (hentries e (List.mem_reverse.mp he)).2

theorem untagged_pair {head : Head} (h : head.tag = .map) {key value : Node} (hkey : key.Untagged)
    (hvalue : value.Untagged) :
    (Node.mapping head.number head.tag [(key, value)] head.start).Untagged := by
  have hentries : UntaggedEntries [(key, value)] := List.forall_mem_singleton.mpr ⟨hkey, hvalue⟩
  exact untagged_mapping h hentries

/-- A node that is put where one is waited for. -/
theorem untagged_place {frames : List Frame} (h : ∀ f ∈ frames, f.Untagged) {node : Node}
    (hnode : node.Untagged) :
    (∀ f ∈ (place node frames).1, f.Untagged) ∧ ∀ root ∈ (place node frames).2, root.Untagged := by
  induction frames generalizing node with
  | nil => exact ⟨h, fun root hroot => Option.some.inj hroot ▸ hnode⟩
  | cons frame rest ih =>
    obtain ⟨hframe, hrest⟩ := List.forall_mem_cons.mp h
    have hput : ∀ f : Frame, f.Untagged → (∀ g ∈ f :: rest, g.Untagged)
        ∧ ∀ root ∈ (none : Option Node), root.Untagged := fun f hf =>
      ⟨List.forall_mem_cons.mpr ⟨hf, hrest⟩, fun root hroot => nomatch hroot⟩
    cases frame with
    | blockSequence head items stage =>
      exact hput _ ⟨hframe.1, List.forall_mem_cons.mpr ⟨hnode, hframe.2⟩⟩
    | looseSequence head items stage =>
      exact hput _ ⟨hframe.1, List.forall_mem_cons.mpr ⟨hnode, hframe.2⟩⟩
    | flowSequence head items stage =>
      exact hput _ ⟨hframe.1, List.forall_mem_cons.mpr ⟨hnode, hframe.2⟩⟩
    | blockMapping head entries stage =>
      obtain ⟨htag, hentries, hstage⟩ := hframe
      cases stage with
      | key => exact hput _ ⟨htag, hentries, hnode⟩
      | keyNode behind => exact hput _ ⟨htag, hentries, hnode⟩
      | value key =>
        exact hput _ ⟨htag, List.forall_mem_cons.mpr ⟨⟨hstage, hnode⟩, hentries⟩, trivial⟩
      | valueNode key behind =>
        exact hput _ ⟨htag, List.forall_mem_cons.mpr ⟨⟨hstage, hnode⟩, hentries⟩, trivial⟩
    | flowPair head stage =>
      obtain ⟨htag, hstage⟩ := hframe
      have hpair : ∀ key : Node, key.Untagged →
          (Node.mapping head.number head.tag [(key, node)] head.start).Untagged := fun key hkey =>
        untagged_pair htag hkey hnode
      cases stage with
      | key => exact hput _ ⟨htag, hnode⟩
      | keyNode behind => exact hput _ ⟨htag, hnode⟩
      | value key => exact ih hrest (hpair key hstage)
      | valueNode key behind => exact ih hrest (hpair key hstage)
    | flowMapping head entries stage =>
      obtain ⟨htag, hentries, hstage⟩ := hframe
      cases stage with
      | first => exact hput _ ⟨htag, hentries, hnode⟩
      | behindComma => exact hput _ ⟨htag, hentries, hnode⟩
      | behindEntry => exact hput _ ⟨htag, hentries, hnode⟩
      | keyNode behind => exact hput _ ⟨htag, hentries, hnode⟩
      | bareKey key =>
        exact hput _ ⟨htag, List.forall_mem_cons.mpr ⟨⟨hstage, hnode⟩, hentries⟩, trivial⟩
      | value key =>
        exact hput _ ⟨htag, List.forall_mem_cons.mpr ⟨⟨hstage, hnode⟩, hentries⟩, trivial⟩
      | valueNode key behind =>
        exact hput _ ⟨htag, List.forall_mem_cons.mpr ⟨⟨hstage, hnode⟩, hentries⟩, trivial⟩

theorem Untagged.deliver (h : r.Untagged) (anchor : Option String) {node : Node}
    (hnode : node.Untagged) : (r.deliver anchor node).Untagged := by
  have hplace := untagged_place h.frames hnode
  have hanchored : ∀ name, ∀ e ∈ (name, node) :: r.anchored, e.2.Untagged := fun name =>
    List.forall_mem_cons.mpr ⟨hnode, h.anchored⟩
  cases anchor with
  | none =>
    rw [Reader.deliver.eq_def]
    dsimp only
    split
    · rename_i root hroot
      exact ⟨hplace.2 root hroot, hplace.1, h.properties, h.anchored⟩
    · exact ⟨h.phase, hplace.1, h.properties, h.anchored⟩
  | some name =>
    rw [Reader.deliver.eq_def]
    dsimp only
    split
    · rename_i root hroot
      exact ⟨hplace.2 root hroot, hplace.1, h.properties, hanchored name⟩
    · exact ⟨h.phase, hplace.1, h.properties, hanchored name⟩

theorem Untagged.register (h : r.Untagged) (anchor : Option String) (start : Mark) :
    KeepsUntagged (r.register anchor start) := by
  rw [Reader.register.eq_def]
  split
  · exact h
  · split
    · trivial
    · exact ⟨h.phase, h.frames, h.properties, h.anchored⟩

theorem untagged_emptyNode (place : Mark) : (emptyNode place).Untagged :=
  .plain "" place (by decide)

theorem Untagged.deliverEmpty (h : r.Untagged) (place : Mark) : (r.deliverEmpty place).Untagged :=
  h.deliver none (untagged_emptyNode place)

/-! ## Properties -/

theorem Untagged.expand (r : Reader) {p : Properties} (h : p.Untagged) :
    Ensures (fun _ => True) Properties.Untagged (r.expand p) := by
  rw [Reader.expand, h.written]
  exact h

theorem Untagged.propertiesAt (h : r.Untagged) (place : Mark) : (r.propertiesAt place).Untagged := by
  rw [Reader.propertiesAt]
  cases hproperties : r.properties with
  | none => exact ⟨rfl, rfl⟩
  | some p => exact h.properties p hproperties

/-- The machine when the properties have been used. -/
theorem Untagged.unset (h : r.Untagged) : Untagged { r with properties := none } :=
  ⟨h.phase, h.frames, fun p hp => absurd hp.symm (Option.some_ne_none p), h.anchored⟩

theorem Untagged.deliverScalar (h : r.Untagged) {p : Properties} (hp : p.Untagged) {text : String}
    {plain : Bool} (ht : TokenKind.Untagged (.scalar text plain)) :
    KeepsUntagged (r.deliverScalar p text plain) := by
  have hnode : (Node.scalar (scalarTag p text plain) text p.start).Untagged := by
    rw [scalarTag, hp.tag]
    cases plain with
    | false => exact .text text p.start
    | true => exact .plain text p.start ht
  rw [Reader.deliverScalar]
  exact (h.unset.register p.anchor p.start).bind fun r hr => hr.deliver p.anchor hnode

theorem Untagged.openCollection (h : r.Untagged) {p : Properties} (hp : p.Untagged) (usual : Tag)
    (begun : Mark) {frame : Head → Frame} (hframe : ∀ head, head.tag = usual → (frame head).Untagged) :
    KeepsUntagged (r.openCollection p usual begun frame) := by
  have htag : collectionTag p usual = usual := by rw [collectionTag, hp.tag]
  rw [Reader.openCollection]
  refine (h.unset.register p.anchor p.start).bind fun r hr => ?_
  exact ⟨hr.phase, List.forall_mem_cons.mpr ⟨hframe _ htag, hr.frames⟩, hr.properties, hr.anchored⟩

/-! ## What a token implies -/

theorem Untagged.settleProperties (h : r.Untagged) (t : Token) :
    KeepsUntagged (r.settleProperties t) := by
  rw [Reader.settleProperties]
  split
  · exact h
  · rename_i p hp
    refine (Untagged.expand r (h.properties p hp)).bind fun p hp => ?_
    have hset : Untagged { r with properties := some p } :=
      ⟨h.phase, h.frames, fun q hq => Option.some.inj hq ▸ hp, h.anchored⟩
    split
    · split
      · exact hset
      · have hempty : TokenKind.Untagged (.scalar "" true) := by
          rw [TokenKind.Untagged]
          decide
        exact h.deliverScalar hp hempty
    · exact hset

theorem Untagged.settleNode (h : r.Untagged) (t : Token) : (r.settleNode t).Untagged := by
  rw [Reader.settleNode]
  split
  · split
    · exact h.deliverEmpty _
    · exact h
  · exact h

theorem Untagged.settleLooseSequence (h : r.Untagged) (t : Token) :
    (r.settleLooseSequence t).Untagged := by
  rw [Reader.settleLooseSequence]
  split
  · rename_i head items rest hframes
    split
    · exact h
    · obtain ⟨hframe, hrest⟩ := List.forall_mem_cons.mp (hframes ▸ h.frames)
      have hbelow : Untagged { r with frames := rest } := ⟨h.phase, hrest, h.properties, h.anchored⟩
      exact hbelow.deliver head.anchor (untagged_sequence hframe.1 hframe.2)
  · exact h

theorem Untagged.settleValue (h : r.Untagged) (t : Token) : (r.settleValue t).Untagged := by
  rw [Reader.settleValue]
  split
  · split
    · exact h
    · exact h.deliverEmpty _
  · split
    · exact h
    · exact h.deliverEmpty _
  · split
    · exact h
    · exact h.deliverEmpty _
  · exact h.deliverEmpty _
  · exact h

/-- What a token implies about the nodes before it leaves the machine untagged. -/
theorem Untagged.settle (h : r.Untagged) (t : Token) : KeepsUntagged (r.settle t) := by
  rw [Reader.settle]
  refine (h.settleProperties t).bind fun r hr => ?_
  exact ((hr.settleNode t).settleLooseSequence t).settleValue t

/-! ## What a token does -/

/-- A token where a node is waited for. -/
theorem Untagged.beginNode (h : r.Untagged) (pos : Position) {t : Token} (ht : t.kind.Untagged) :
    KeepsUntagged (r.beginNode pos t) := by
  have hp := h.propertiesAt t.start
  have hitems : ∀ item ∈ ([] : List Node), item.Untagged := fun item hitem => nomatch hitem
  have hentries : UntaggedEntries [] := fun e he => nomatch he
  rw [Reader.beginNode]
  cases hkind : t.kind with
  | «alias» name =>
    dsimp only
    split
    · exact h.deliver none (.reference name)
    · trivial
  | anchor name =>
    exact ⟨h.phase, h.frames, fun p hp' => Option.some.inj hp' ▸ ⟨hp.written, hp.tag⟩, h.anchored⟩
  | tag name =>
    rw [hkind] at ht
    exact ht.elim
  | scalar text plain => exact h.deliverScalar hp (hkind ▸ ht)
  | flowSequenceStart => exact h.openCollection hp .seq t.start fun head htag => ⟨htag, hitems⟩
  | flowMappingStart =>
    exact h.openCollection hp .map t.start fun head htag => ⟨htag, hentries, trivial⟩
  | blockSequenceStart =>
    dsimp only
    split
    · exact h.openCollection hp .seq t.start fun head htag => ⟨htag, hitems⟩
    · trivial
  | blockMappingStart =>
    dsimp only
    split
    · exact h.openCollection hp .map t.start fun head htag => ⟨htag, hentries, trivial⟩
    · trivial
  | blockEntry =>
    dsimp only
    split
    · exact h.openCollection hp .seq t.start fun head htag => ⟨htag, hitems⟩
    · trivial
  | _ => trivial

/-- Closing the innermost collection, which has become a node. -/
theorem Untagged.close (h : r.Untagged) {rest : List Frame} (hrest : ∀ f ∈ rest, f.Untagged)
    (head : Head) {node : Node} (hnode : node.Untagged) :
    KeepsUntagged (consumeInBody.close r rest head node) := by
  have hbelow : Untagged { r with frames := rest } := ⟨h.phase, hrest, h.properties, h.anchored⟩
  exact hbelow.deliver head.anchor hnode

/-- The machine with other frames. -/
theorem Untagged.withFrames (h : r.Untagged) {frame : Frame} (hframe : frame.Untagged)
    {rest : List Frame} (hrest : ∀ f ∈ rest, f.Untagged) :
    Untagged { r with frames := frame :: rest } :=
  ⟨h.phase, List.forall_mem_cons.mpr ⟨hframe, hrest⟩, h.properties, h.anchored⟩

/-- A token in the root node. -/
theorem Untagged.consumeInBody (h : r.Untagged) {t : Token} (ht : t.kind.Untagged) :
    KeepsUntagged (r.consumeInBody t) := by
  have hbegin := fun pos => h.beginNode pos ht
  rw [Reader.consumeInBody]
  split
  · -- a block sequence behind an item
    rename_i head items rest hframes
    obtain ⟨⟨htag, hitems⟩, hrest⟩ := List.forall_mem_cons.mp (hframes ▸ h.frames)
    split
    · refine h.withFrames ?_ hrest
      exact ⟨htag, hitems⟩
    · exact h.close hrest head (untagged_sequence htag hitems)
    · trivial
  · -- a sequence without indentation behind an item
    rename_i head items rest hframes
    obtain ⟨⟨htag, hitems⟩, hrest⟩ := List.forall_mem_cons.mp (hframes ▸ h.frames)
    refine h.withFrames ?_ hrest
    exact ⟨htag, hitems⟩
  · -- a block mapping behind an entry
    rename_i head entries rest hframes
    obtain ⟨⟨htag, hentries, -⟩, hrest⟩ := List.forall_mem_cons.mp (hframes ▸ h.frames)
    split
    · refine h.withFrames ?_ hrest
      exact ⟨htag, hentries, trivial⟩
    · exact h.close hrest head (untagged_mapping htag hentries)
    · trivial
  · -- a block mapping behind a key
    rename_i head entries key rest hframes
    obtain ⟨⟨htag, hentries, hkey⟩, hrest⟩ := List.forall_mem_cons.mp (hframes ▸ h.frames)
    refine h.withFrames ?_ hrest
    exact ⟨htag, hentries, hkey⟩
  · -- a flow sequence
    rename_i head items stage rest hframes
    obtain ⟨⟨htag, hitems⟩, hrest⟩ := List.forall_mem_cons.mp (hframes ▸ h.frames)
    split
    · exact h.close hrest head (untagged_sequence htag hitems)
    · refine h.withFrames ?_ hrest
      exact ⟨htag, hitems⟩
    · trivial
    · have hpair : (Frame.flowPair ⟨r.count, .map, none, t.start, t.start⟩
          (.keyNode t.stop)).Untagged := ⟨rfl, trivial⟩
      exact ⟨h.phase, List.forall_mem_cons.mpr ⟨hpair, h.frames⟩, h.properties, h.anchored⟩
    · exact hbegin _
  · -- a single pair behind its key
    rename_i head key rest hframes
    obtain ⟨⟨htag, hkey⟩, hrest⟩ := List.forall_mem_cons.mp (hframes ▸ h.frames)
    refine h.withFrames ?_ hrest
    exact ⟨htag, hkey⟩
  · -- a flow mapping
    rename_i head entries stage rest hframes
    obtain ⟨⟨htag, hentries, hstage⟩, hrest⟩ := List.forall_mem_cons.mp (hframes ▸ h.frames)
    split
    · exact hbegin _
    · exact hbegin _
    · refine h.withFrames ?_ hrest
      exact ⟨htag, hentries, hstage⟩
    · exact h.close hrest head (untagged_mapping htag hentries)
    · refine h.withFrames ?_ hrest
      exact ⟨htag, hentries, trivial⟩
    · trivial
    · refine h.withFrames ?_ hrest
      exact ⟨htag, hentries, trivial⟩
    · exact hbegin _
  · exact hbegin _

/-! ## Documents -/

theorem Untagged.withPhase (h : r.Untagged) {phase : Phase} (hphase : phase.Untagged) :
    Untagged { r with phase := phase } := ⟨hphase, h.frames, h.properties, h.anchored⟩

theorem Untagged.consumeDirective (h : r.Untagged) {root : Option Node}
    (hroot : ∀ node ∈ root, node.Untagged) (start : Mark) (versioned : Bool)
    (handles : List (String × String)) (t : Token) :
    KeepsUntagged (r.consumeDirective root start versioned handles t) := by
  rw [Reader.consumeDirective.eq_def]
  split
  · split
    · trivial
    · split
      · trivial
      · exact h.withPhase hroot
  · split
    · trivial
    · exact h.withPhase hroot
  · exact h.withPhase hroot
  · split
    · trivial
    · exact ⟨trivial, h.frames, h.properties, h.anchored⟩
  · trivial

theorem Untagged.consumeBetween (h : r.Untagged) {root : Option Node}
    (hroot : ∀ node ∈ root, node.Untagged) (t : Token) :
    KeepsUntagged (r.consumeBetween root t) := by
  rw [Reader.consumeBetween]
  split
  · exact h.withPhase hroot
  · exact h.withPhase hroot
  · exact h.consumeDirective hroot t.start false [] t

theorem Untagged.consumeClosing (h : r.Untagged) {root : Node} (hroot : root.Untagged) (t : Token) :
    KeepsUntagged (r.consumeClosing root t) :=
  h.consumeBetween (fun _ hnode => Option.some.inj hnode ▸ hroot) t

theorem Untagged.consumeSettled (h : r.Untagged) {t : Token} (ht : t.kind.Untagged) :
    KeepsUntagged (r.consumeSettled t) := by
  rw [Reader.consumeSettled]
  refine (h.settle t).bind fun r hr => ?_
  split
  · rename_i root hphase
    have hroot : root.Untagged := by
      have hr := hr.phase
      rwa [hphase] at hr
    exact hr.consumeClosing hroot t
  · exact hr.consumeInBody ht

/-- One untagged token leaves the machine untagged. -/
theorem untagged_step (h : r.Untagged) {t : Token} (ht : t.kind.Untagged) :
    KeepsUntagged (r.step t) := by
  have hin : Untagged { r with phase := .body } := h.withPhase trivial
  have hbody : KeepsUntagged ({ r with phase := .body }.consumeInBody t) := hin.consumeInBody ht
  have hnone : ∀ node ∈ (none : Option Node), node.Untagged := fun _ hnode => nomatch hnode
  have hphase := h.phase
  rw [step]
  cases hr : r.phase with
  | opening =>
    dsimp only
    split
    · exact h.consumeBetween hnone t
    · exact h.consumeBetween hnone t
    · exact h.consumeBetween hnone t
    · exact hbody
  | between root =>
    rw [hr] at hphase
    exact h.consumeBetween hphase t
  | directives root start versioned handles =>
    rw [hr] at hphase
    exact h.consumeDirective hphase start versioned handles t
  | content =>
    dsimp only
    split
    · exact h.consumeClosing (untagged_emptyNode t.start) t
    · exact h.consumeClosing (untagged_emptyNode t.start) t
    · exact h.consumeClosing (untagged_emptyNode t.start) t
    · exact h.consumeClosing (untagged_emptyNode t.start) t
    · exact hbody
  | body => exact h.consumeSettled ht
  | closing root =>
    rw [hr] at hphase
    exact h.consumeClosing hphase t
  | done root => exact h

theorem untagged_start : Untagged start where
  phase := trivial
  frames _ hf := nomatch hf
  properties _ hp := nomatch hp
  anchored _ he := nomatch he

end Reader

/-- Untagged tokens make an untagged document, if they make one. -/
theorem untagged_ofTokens {ts : Tokens} (h : ∀ t ∈ ts.tokens, t.kind.Untagged) :
    Ensures (fun _ => True) (fun d? => ∀ d ∈ d?, Document.Untagged d) (Document.ofTokens ts) := by
  have hrun : Reader.KeepsUntagged (ts.tokens.foldlM Reader.step Reader.start) :=
    Ensures.foldlM (fun _ hr t ht => Reader.untagged_step hr (h t ht)) Reader.untagged_start
  rw [Document.ofTokens]
  refine hrun.bind fun r hr => ?_
  split
  · trivial
  · split
    · rename_i root hphase
      have hroot := hr.phase
      rw [hphase] at hroot
      exact fun d hd => Option.some.inj hd ▸ ⟨hroot root rfl, hr.anchored⟩
    · exact fun d hd => nomatch hd

end ComposeNix.Yaml
