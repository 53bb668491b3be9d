import ComposeNix.Proofs.Container.Parts
import ComposeNix.Proofs.Dictionary
import ComposeNix.Proofs.Nix.Lines
import ComposeNix.Proofs.Systemd.Override
import ComposeNix.Proofs.Text.Split

/-!
# The settings of an override

The override of a unit has settings of two kinds.  Some are named by labels: what stands behind the
beginning of a label that it strictly extends (`extendsLead`).  One may come from the restart
policy, and it stands first, with the value of the label of that name if there is one
(`mergedSettings`).

`Service.overrideBlock?_settings` says what becomes of them.  There is no block if there are no
settings.  Otherwise the block is, character by character, a line for each setting in the section
that it belongs to, and Nix reads from it these settings in their order, each with priority 90 and
the value as it was given.  Everything else about the service is without effect.
-/

namespace ComposeNix

open Nix (Attr Expr Fields Key Tree bindingLines bindingsTrees field fieldsOf wordKey)

/-! ## Labels that strictly extend a beginning -/

/-- Whether a key has a beginning and something behind it. -/
def extendsLead (lead key : String) : Bool := Text.startsWith lead key && key != lead

theorem extendsLead_iff {lead key : String} :
    extendsLead lead key = true ↔ ∃ rest, rest ≠ "" ∧ key = lead ++ rest := by
  rw [extendsLead, Bool.and_eq_true, Text.startsWith, Option.isSome_iff_exists, bne_iff_ne]
  constructor
  · rintro ⟨⟨rest, hrest⟩, hne⟩
    obtain rfl := Text.after?_eq_some_iff.mp hrest
    refine ⟨rest, fun hempty => hne ?_, rfl⟩
    rw [hempty, String.append_empty]
  · rintro ⟨rest, hne, rfl⟩
    refine ⟨⟨rest, Text.after?_eq_some_iff.mpr rfl⟩, fun hsame => hne ?_⟩
    exact (String.append_right_inj lead).mp (hsame.trans String.append_empty.symm)

/-- The settings that labels name under a beginning: with the beginning in front again they are the
labels that strictly extend it, in order. -/
def IsFamily (lead : String) (labels settings : Dictionary String) : Prop :=
  settings.map (fun e => (lead ++ e.1, e.2)) = labels.filter fun e => extendsLead lead e.1

theorem labelledSettings_cons_of_extends {lead rest : String} {e : String × String}
    (hne : rest ≠ "") (hkey : e.1 = lead ++ rest) (labels : Dictionary String) :
    labelledSettings lead (e :: labels) = (rest, e.2) :: labelledSettings lead labels := by
  refine List.filterMap_cons_some ?_
  rw [Text.after?_eq_some_iff.mpr hkey]
  split
  · next h => cases h
  · next h => exact absurd (Option.some.inj h) hne
  · next h => rw [Option.some.inj h]

theorem labelledSettings_cons_of_not_extends {lead : String} {e : String × String}
    (h : ¬ extendsLead lead e.1 = true) (labels : Dictionary String) :
    labelledSettings lead (e :: labels) = labelledSettings lead labels := by
  refine List.filterMap_cons_none ?_
  split
  · rfl
  · rfl
  · next rest hempty hrest =>
    exact absurd (extendsLead_iff.mpr ⟨rest, hempty, Text.after?_eq_some_iff.mp hrest⟩) h

theorem isFamily_labelledSettings (lead : String) (labels : Dictionary String) :
    IsFamily lead labels (labelledSettings lead labels) := by
  rw [IsFamily]
  induction labels with
  | nil => rfl
  | cons e labels ih =>
    rw [List.filter_cons]
    by_cases hext : extendsLead lead e.1 = true
    · obtain ⟨rest, hne, hkey⟩ := extendsLead_iff.mp hext
      rw [labelledSettings_cons_of_extends hne hkey, if_pos hext, List.map_cons, ih, ← hkey]
    · rw [labelledSettings_cons_of_not_extends hext, if_neg hext, ih]

theorem IsFamily.unique {lead : String} {labels labels' settings settings' : Dictionary String}
    (h : IsFamily lead labels settings) (h' : IsFamily lead labels' settings')
    (hlabels : labels.filter (fun e => extendsLead lead e.1)
      = labels'.filter fun e => extendsLead lead e.1) : settings = settings' := by
  refine List.map_injective_iff.mpr (fun e e' he => ?_) (h.trans (hlabels.trans h'.symm))
  obtain ⟨hkey, hvalue⟩ := Prod.mk.inj he
  exact Prod.ext ((String.append_right_inj lead).mp hkey) hvalue

theorem IsFamily.nodup_keys {lead : String} {labels settings : Dictionary String}
    (h : IsFamily lead labels settings) (hlabels : (Dictionary.keys labels).Nodup) :
    (Dictionary.keys settings).Nodup := by
  have hkeys : (Dictionary.keys settings).map (lead ++ ·)
      = (labels.filter fun e => extendsLead lead e.1).map Prod.fst := by
    rw [← h, Dictionary.keys, List.map_map, List.map_map]
    rfl
  refine List.Nodup.of_map (lead ++ ·) ?_
  rw [hkeys]
  exact (List.filter_sublist.map Prod.fst).nodup hlabels

theorem IsFamily.isEmpty_iff {lead : String} {labels settings : Dictionary String}
    (h : IsFamily lead labels settings) :
    settings.isEmpty = true ↔ ∀ e ∈ labels, ¬ extendsLead lead e.1 = true := by
  rw [← List.filter_eq_nil_iff, ← h, List.map_eq_nil_iff, List.isEmpty_iff]

/-! ## The restart policy -/

/-- The restart setting that the policy of a service asks for. -/
def Service.restartPolicy? (s : Service) : Option String :=
  s.restart.bind fun policy => if policy = "" then none else restartSetting policy

theorem Service.restartPolicy?_eq_none_iff {s : Service} : s.restartPolicy? = none
    ↔ s.restart = none ∨ s.restart = some "" ∨ s.restart = some "no" := by
  rw [restartPolicy?]
  cases s.restart with
  | none => simp
  | some policy =>
    rw [Option.bind_some, restartSetting]
    split
    · next h => simp [h]
    · next hempty =>
      split
      · next hno => simp [hno]
      · next hno => split <;> simp [hempty, hno]

theorem Service.policySettings_eq (s : Service) :
    s.policySettings = (s.restartPolicy?.map fun policy => ("Restart", policy)).toList := by
  rw [policySettings, restartPolicy?]
  split
  · next h => rw [h]; rfl
  · next h => rw [h]; rfl
  · next policy hne h =>
    rw [h, Option.bind_some, if_neg hne]

/-- The settings of the service section: that of the policy stands first and has the value of the
label of its name, if there is one. -/
def mergedSettings (policy? : Option String) (settings : Dictionary String) : Dictionary String :=
  match policy? with
  | none => settings
  | some policy => ("Restart", (settings.get? "Restart").getD policy)
      :: settings.filter fun e => e.1 != "Restart"

theorem Service.serviceSettings_eq {s : Service}
    (hlabels : (Dictionary.keys (s.labels.getD [])).Nodup) : s.serviceSettings
      = mergedSettings s.restartPolicy?
          (labelledSettings serviceSettingLabel (s.labels.getD [])) := by
  have hnodup :=
    (isFamily_labelledSettings serviceSettingLabel (s.labels.getD [])).nodup_keys hlabels
  rw [serviceSettings, s.policySettings_eq]
  cases s.restartPolicy? with
  | none => exact Dictionary.ofEntries_eq_self hnodup
  | some policy => exact Dictionary.update_singleton policy hnodup

/-! ## The text of the block -/

/-- The line of a setting. -/
def settingText (e : String × String) : List Char :=
  "      ".toList ++ Nix.attributeName e.1.toList ++ " = lib.mkOverride 90 ".toList
    ++ Nix.quote e.2.toList ++ ";\n".toList

/-- The lines of a section, if it has settings. -/
def sectionText (key : String) (settings : Dictionary String) : List Char :=
  if settings.isEmpty then []
  else "    ".toList ++ key.toList ++ " = \x7b\n".toList ++ settings.flatMap settingText
    ++ "    \x7d;\n".toList

/-- The lines of an override. -/
def overrideText (unit : String) (serviceSettings unitSettings : Dictionary String) : List Char :=
  "  systemd.services.".toList ++ Nix.quote unit.toList ++ " = \x7b\n".toList
    ++ sectionText "serviceConfig" serviceSettings ++ sectionText "unitConfig" unitSettings
    ++ "  \x7d;".toList

theorem bindingLines_setting (e : String × String) :
    bindingLines 3 ([Attr.named e.1], .override (.ofText e.2)) = settingText e := by
  rw [bindingLines, Nix.renderBinding_mk, Nix.Expr.render_override, Nix.render_ofText,
    Nix.renderPath_singleton]
  unfold settingText
  simp [Nix.indent, Nix.Attr.render]

theorem flatMap_bindingLines_settingsBinding (key : String) (settings : Dictionary String) :
    (settingsBinding key settings).flatMap (bindingLines 2) = sectionText key settings := by
  rw [settingsBinding, sectionText]
  split
  · rfl
  · rw [List.flatMap_singleton, Nix.bindingLines_set, Nix.renderBindings_lines, List.flatMap_map,
      List.flatMap_congr fun e _ => bindingLines_setting e, Nix.renderPath_singleton]
    simp [Nix.indent, Nix.Attr.render]

theorem renderBlock_override (backend : Backend) (name : String)
    (serviceSettings unitSettings : Dictionary String) :
    Nix.renderBlock [([.word "systemd", .word "services", .quoted (containerUnit backend name)],
      .set false (settingsBinding "serviceConfig" serviceSettings
        ++ settingsBinding "unitConfig" unitSettings))]
      = overrideText (containerUnit backend name) serviceSettings unitSettings := by
  have hpath (unit : String) :
      Nix.renderPath [.word "systemd", .word "services", .quoted unit]
        = "systemd.services.".toList ++ Nix.quote unit.toList := by
    rw [Nix.renderPath_cons_cons, Nix.renderPath_cons_cons, Nix.renderPath_singleton]
    rfl
  rw [Nix.renderBlock_singleton, Nix.renderBinding_mk, hpath, Nix.Expr.render_set,
    Nix.renderBindings_lines, List.flatMap_append, flatMap_bindingLines_settingsBinding,
    flatMap_bindingLines_settingsBinding]
  unfold overrideText
  simp [Nix.indent]

/-! ## Reading the block -/

/-- An override: the unit, and its sections with their settings. -/
structure UnitOverride where
  unit : String
  serviceConfig : Option (List (Key × String))
  unitConfig : Option (List (Key × String))
  deriving DecidableEq

/-- A setting with priority 90: its name and its text. -/
def readSetting : List Key × Tree → Option (Key × String)
  | ([key], .apply [.name function, .name [priority], value]) =>
    if function = Nix.dottedWords "lib.mkOverride" ∧ priority = "90".toList then
      value.text?.map (key, ·)
    else none
  | _ => none

/-- The settings of a section. -/
def readSettings : Tree → Option (List (Key × String))
  | .set fields => fields.mapM readSetting
  | _ => none

/-- The override that a text declares.  It has no other sections, and none twice. -/
def readOverride (text : List Char) : Option UnitOverride :=
  (Nix.readBlock text).bind fun fields =>
    match fields with
    | [([systemd, services, unit], .set fields)] =>
      if [systemd, services] = [wordKey "systemd", wordKey "services"]
          ∧ (fields.map Prod.fst).Sublist [[wordKey "serviceConfig"], [wordKey "unitConfig"]]
      then do
        let serviceConfig ← Fields.optional readSettings "serviceConfig" fields
        let unitConfig ← Fields.optional readSettings "unitConfig" fields
        return { unit := ← Nix.string? unit, serviceConfig, unitConfig }
      else none
    | _ => none

/-- The settings of a section as they are read, if there are any. -/
def readBack (settings : Dictionary String) : Option (List (Key × String)) :=
  (present settings).map fun settings => settings.map fun e => ((Attr.named e.1).key, e.2)

/-- The set of these settings. -/
def settingsTree (settings : Dictionary String) : Tree :=
  .set (bindingsTrees (settings.map fun e => ([Attr.named e.1], Expr.override (Expr.ofText e.2))))

theorem readSettings_settingsTree (settings : Dictionary String) :
    readSettings (settingsTree settings)
      = some (settings.map fun e => ((Attr.named e.1).key, e.2)) := by
  rw [settingsTree, readSettings]
  induction settings with
  | nil => rfl
  | cons e settings ih =>
    have hsetting : readSetting
        (Nix.bindingTree ([Attr.named e.1], Expr.override (Expr.ofText e.2)))
          = some ((Attr.named e.1).key, e.2) := by
      rw [Nix.bindingTree, Expr.terms, Nix.terms_ofText]
      show (Tree.ofText e.2).text?.map _ = _
      rw [Tree.text?_ofText]
      rfl
    rw [List.map_cons, bindingsTrees, List.mapM_cons, hsetting, ih]
    rfl

theorem bindingsTrees_settingsBinding (key : String) (settings : Dictionary String) :
    bindingsTrees (settingsBinding key settings)
      = field key ((present settings).map settingsTree) := by
  rw [settingsBinding, present]
  split <;> rfl

/-- The sections of an override, each of them absent or there. -/
def sectionPieces (serviceSettings unitSettings : Dictionary String) :
    List (String × Option Tree) :=
  [("serviceConfig", (present serviceSettings).map settingsTree),
    ("unitConfig", (present unitSettings).map settingsTree)]

theorem optional_readSettings {pieces : List (String × Option Tree)}
    (hpieces : (pieces.map Prod.fst).Nodup) {key : String} {settings : Dictionary String}
    (h : (key, (present settings).map settingsTree) ∈ pieces) :
    Fields.optional readSettings key (fieldsOf pieces) = some (readBack settings) :=
  Nix.optional_fieldsOf_map readSettings_settingsTree hpieces h

/-- What is read from the block of an override are its settings. -/
theorem Service.readOverride_overrideBlock {backend : Backend} {name : String} {s : Service}
    {block : List Char} (h : s.overrideBlock? backend name = some block) :
    block = overrideText (containerUnit backend name) s.serviceSettings s.unitSettings
      ∧ readOverride block = some {
          unit := containerUnit backend name
          serviceConfig := readBack s.serviceSettings
          unitConfig := readBack s.unitSettings } := by
  rw [overrideBlock?] at h
  obtain ⟨b, hb, rfl⟩ := Option.map_eq_some_iff.mp h
  have hwell : Nix.BindingsWellFormed [b] := ⟨(isPlain_override? hb).wellFormed, trivial⟩
  have hread := Nix.readBlock_renderBlock hwell
  rw [override?] at hb
  split at hb
  · cases hb
  · obtain rfl := Option.some.inj hb
    refine ⟨renderBlock_override backend name _ _, ?_⟩
    have hpieces : ((sectionPieces s.serviceSettings s.unitSettings).map Prod.fst).Nodup := by
      show ["serviceConfig", "unitConfig"].Nodup
      decide
    have htree : bindingsTrees [([.word "systemd", .word "services",
        .quoted (containerUnit backend name)],
        .set false (settingsBinding "serviceConfig" s.serviceSettings
          ++ settingsBinding "unitConfig" s.unitSettings))]
        = [([wordKey "systemd", wordKey "services", wordKey (containerUnit backend name)],
          .set (fieldsOf (sectionPieces s.serviceSettings s.unitSettings)))] := by
      have hsections : bindingsTrees (settingsBinding "serviceConfig" s.serviceSettings
          ++ settingsBinding "unitConfig" s.unitSettings)
          = fieldsOf (sectionPieces s.serviceSettings s.unitSettings) := by
        rw [Nix.bindingsTrees_append, bindingsTrees_settingsBinding,
          bindingsTrees_settingsBinding, sectionPieces, Nix.fieldsOf_cons, Nix.fieldsOf_cons,
          Nix.fieldsOf_nil, List.append_nil]
      rw [← hsections]
      rfl
    have hsublist : List.Sublist
        ((fieldsOf (sectionPieces s.serviceSettings s.unitSettings)).map Prod.fst)
        [[wordKey "serviceConfig"], [wordKey "unitConfig"]] :=
      Nix.keys_fieldsOf_sublist (sectionPieces s.serviceSettings s.unitSettings)
    have hname : Nix.string? (wordKey (containerUnit backend name))
        = some (containerUnit backend name) := Nix.string?_map_char _
    rw [readOverride, hread, htree, Option.bind_some]
    simp only [hsublist, and_self, if_true,
      optional_readSettings hpieces List.mem_cons_self, hname,
      optional_readSettings hpieces (List.mem_cons_of_mem _ List.mem_cons_self)]
    rfl

/-! ## The settings of a service -/

/-- No setting is there twice, that of the policy neither. -/
theorem nodup_keys_mergedSettings (policy? : Option String) {settings : Dictionary String}
    (h : (Dictionary.keys settings).Nodup) :
    (Dictionary.keys (mergedSettings policy? settings)).Nodup := by
  cases policy? with
  | none => exact h
  | some policy =>
    refine List.nodup_cons.mpr ⟨fun hmem => ?_, (List.filter_sublist.map Prod.fst).nodup h⟩
    obtain ⟨e, he, hkey⟩ := List.mem_map.mp hmem
    exact bne_iff_ne.mp (List.mem_filter.mp he).2 hkey

theorem isEmpty_mergedSettings (policy? : Option String) (settings : Dictionary String) :
    (mergedSettings policy? settings).isEmpty = true
      ↔ policy? = none ∧ settings.isEmpty = true := by
  cases policy? with
  | none => simp [mergedSettings]
  | some policy => simp [mergedSettings]

theorem not_extendsLead_iff {lead key : String} :
    ¬ extendsLead lead key = true ↔ ∀ rest, rest ≠ "" → key ≠ lead ++ rest := by
  rw [extendsLead_iff]
  push Not
  rfl

/-- The override of a unit has exactly the settings that were asked for.  Two families of settings
are named by labels, and the restart policy stands in front of the first.  There is no block exactly
if the policy asks for nothing and no label strictly extends the beginning of a family.  Otherwise
the block is a line for each setting, and is read as these settings in their sections, of which each
is there if it has any; no setting is there twice.  Labels outside the families change nothing, nor
does anything else but the policy. -/
theorem Service.overrideBlock?_settings (backend : Backend) (name : String) {s : Service}
    (hlabels : (Dictionary.keys (s.labels.getD [])).Nodup) : ∃ own unit : Dictionary String,
      IsFamily serviceSettingLabel (s.labels.getD []) own
      ∧ IsFamily unitSettingLabel (s.labels.getD []) unit
      ∧ (s.overrideBlock? backend name = none
        ↔ (s.restart = none ∨ s.restart = some "" ∨ s.restart = some "no")
          ∧ ∀ e ∈ s.labels.getD [], ∀ rest, rest ≠ "" →
            e.1 ≠ serviceSettingLabel ++ rest ∧ e.1 ≠ unitSettingLabel ++ rest)
      ∧ (∀ block, s.overrideBlock? backend name = some block →
        block = overrideText (backend.name ++ "-" ++ name)
            (mergedSettings s.restartPolicy? own) unit
          ∧ readOverride block = some {
              unit := backend.name ++ "-" ++ name
              serviceConfig := readBack (mergedSettings s.restartPolicy? own)
              unitConfig := readBack unit })
      ∧ (Dictionary.keys (mergedSettings s.restartPolicy? own)).Nodup
      ∧ (Dictionary.keys unit).Nodup
      ∧ ∀ t : Service, t.restart = s.restart →
        (∀ lead ∈ [serviceSettingLabel, unitSettingLabel],
          (t.labels.getD []).filter (fun e => extendsLead lead e.1)
            = (s.labels.getD []).filter fun e => extendsLead lead e.1) →
        t.overrideBlock? backend name = s.overrideBlock? backend name := by
  have hown := isFamily_labelledSettings serviceSettingLabel (s.labels.getD [])
  have hunit := isFamily_labelledSettings unitSettingLabel (s.labels.getD [])
  have hservice := s.serviceSettings_eq hlabels
  refine ⟨_, _, hown, hunit, ?_, fun block hblock => ?_,
    nodup_keys_mergedSettings _ (hown.nodup_keys hlabels), hunit.nodup_keys hlabels,
    fun t hrestart hfilter => ?_⟩
  · have hempty : (s.serviceSettings.isEmpty && s.unitSettings.isEmpty) = true
        ↔ s.restartPolicy? = none ∧ ∀ e ∈ s.labels.getD [],
          ¬ extendsLead serviceSettingLabel e.1 = true
            ∧ ¬ extendsLead unitSettingLabel e.1 = true := by
      rw [Bool.and_eq_true, hservice, isEmpty_mergedSettings, unitSettings, hown.isEmpty_iff,
        hunit.isEmpty_iff, and_assoc]
      exact and_congr_right fun _ => forall₂_and.symm
    rw [overrideBlock?, Option.map_eq_none_iff, override?, ite_eq_left_iff]
    simp only [reduceCtorEq, imp_false, not_not, hempty, restartPolicy?_eq_none_iff,
      not_extendsLead_iff, forall₂_and]
  · rw [← hservice]
    exact Service.readOverride_overrideBlock hblock
  · have hsame : t.serviceSettings = s.serviceSettings := by
      rw [serviceSettings, serviceSettings, policySettings, policySettings, hrestart,
        (isFamily_labelledSettings _ _).unique hown (hfilter _ List.mem_cons_self)]
    have hsame' : t.unitSettings = s.unitSettings :=
      (isFamily_labelledSettings _ _).unique hunit
        (hfilter _ (List.mem_cons_of_mem _ List.mem_cons_self))
    rw [overrideBlock?, override?, hsame, hsame', overrideBlock?, override?]

/-- A service whose labels restart it in another way than its policy. -/
def supervised : Service :=
  { (Service.read []).value with
    restart := some "always"
    labels := some [
      ("pod2nix.systemd.unit.After", "db.service"),
      ("pod2nix.systemd.service.RestartSec", "5"),
      ("app", "x"),
      ("pod2nix.systemd.service.Restart", "on-abnormal"),
      ("pod2nix.systemd.service.", "none")] }

/-- The label wins over the policy and takes its place. -/
theorem Service.overrideBlock?_settings_supervised :
    (Dictionary.keys (supervised.labels.getD [])).Nodup
      ∧ ∃ block, supervised.overrideBlock? .docker "web" = some block
        ∧ readOverride block = some {
            unit := "docker-web"
            serviceConfig := some [(wordKey "Restart", "on-abnormal"), (wordKey "RestartSec", "5")]
            unitConfig := some [(wordKey "After", "db.service")] } := by
  have hlabels : (Dictionary.keys (supervised.labels.getD [])).Nodup := by decide
  obtain ⟨own, unit, hown, hunit, -, hblock, -⟩ :=
    Service.overrideBlock?_settings .docker "web" hlabels
  obtain rfl := hown.unique (isFamily_labelledSettings _ _) rfl
  obtain rfl := hunit.unique (isFamily_labelledSettings _ _) rfl
  cases h : supervised.overrideBlock? .docker "web" with
  | none => exact absurd h (by decide)
  | some block =>
    refine ⟨hlabels, block, rfl, ?_⟩
    rw [(hblock block h).2]
    decide

end ComposeNix
