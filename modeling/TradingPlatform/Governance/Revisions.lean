import TradingPlatform.Config.Applying
import TradingPlatform.Governance.Records
import TradingPlatform.Lib.Joined

/-!
# Configuration revisions

`compute_config_revision` names the configuration on disk by a digest of the engine's and the
features' file, of the provider files named after the providers found, and of the name of the
default fill model. The other settings are not in it, nor is a provider file of another name.
-/

namespace TradingPlatform

/-- SHA-256 in hexadecimal: of the contents of a file, of a text, and of a text cut to the first 16
digits. -/
structure Digest (Text : Type) where
  file : Text → String
  text : String → String
  short : String → String

/-- The digits are no separators. -/
structure Digest.Hexadecimal {Text : Type} (digest : Digest Text) : Prop where
  file_ne : ∀ t, digest.file t ≠ ""
  file_colon : ∀ t, ':' ∉ (digest.file t).toList
  file_bar : ∀ t, '|' ∉ (digest.file t).toList
  text_colon : ∀ s, ':' ∉ (digest.text s).toList

structure ConfigRevision where
  revisionId : String
  createdAt : ℤ
  engineConfigHash : String
  featuresConfigHash : String
  providersConfigHash : String
  fillModelId : String
  riskLimitsHash : String
  label : String
  parentRevisionId : Option String
  configBundle : ConfigBundle

namespace ConfigLibrary

variable {Text : Type} (lib : ConfigLibrary Text) (digest : Digest Text)

/-- `_file_hash` -/
def fileHash (file : Option Text) : String :=
  match file with
  | none => ""
  | some text => digest.file text

/-- `_load_yaml` -/
def loadYaml (file : Option Text) : Except PyError Yaml :=
  match file with
  | none => .ok (.map [])
  | some text => (lib.safeLoad text).map fun y => if y.truthy then y else .map []

/-- The part of a provider in the text of `_providers_hash`. -/
def providerPart (dir : ConfigDir Text) (providerId : String) : String :=
  providerId ++ ":" ++ fileHash digest (dir.providers.get? providerId)

/-- The providers' identifiers, sorted. -/
def providerIds (files : List (String × ProviderConfig)) : List String :=
  (files.map fun f => f.2.providerId).mergeSort fun a b => decide (a.toList ≤ b.toList)

/-- The text of `_providers_hash`. -/
def providersText (dir : ConfigDir Text) (files : List (String × ProviderConfig)) : String :=
  "|".intercalate ((providerIds files).map (providerPart digest dir))

def riskSection (engineRaw : Yaml) : Except PyError Yaml := do
  let engine ← engineRaw.getD "engine" (.map [])
  let default ← engineRaw.getD "risk" (.map [])
  engine.getD "risk" default

/-- The documents of the providers, under their identifiers. -/
def providerBundle (dir : ConfigDir Text) (files : List (String × ProviderConfig)) :
    Except PyError (Dict String Yaml) :=
  files.foldlM (fun bundle f =>
    (lib.loadYaml (dir.providers.get? f.2.providerId)).map (bundle.set f.2.providerId)) ∅

end ConfigLibrary

/-- The text whose digest names the revision. -/
def ConfigRevision.combined (revision : ConfigRevision) : String :=
  revision.engineConfigHash ++ ":" ++ (revision.featuresConfigHash ++ ":" ++
    (revision.providersConfigHash ++ ":" ++ (revision.riskLimitsHash ++ ":" ++
      revision.fillModelId)))

namespace ConfigLibrary

variable {Text : Type} (lib : ConfigLibrary Text) (digest : Digest Text)

def computeConfigRevision (dir : ConfigDir Text) (label : String)
    (parentRevisionId : Option String) (now : ℤ) : Except PyError ConfigRevision := do
  let engineRaw ← lib.loadYaml dir.engine
  let featuresRaw ← lib.loadYaml dir.features
  let files ← lib.discoverProviderConfigs dir
  let risk ← riskSection engineRaw
  let fillModel ← lib.loadDefaultFillModel dir
  let providers ← lib.providerBundle dir files
  let revision : ConfigRevision := {
    revisionId := ""
    createdAt := now
    engineConfigHash := fileHash digest dir.engine
    featuresConfigHash := fileHash digest dir.features
    providersConfigHash := digest.text (providersText digest dir files)
    fillModelId := fillModel.modelId
    riskLimitsHash := digest.file (lib.safeDumpSorted risk)
    label
    parentRevisionId
    configBundle := { engine := engineRaw, features := featuresRaw, providers } }
  return { revision with revisionId := "rev_" ++ digest.short revision.combined }

end ConfigLibrary

/-! ## What an identifier says of two directories -/

section

variable {Text : Type} {lib : ConfigLibrary Text} {digest : Digest Text}
  {dir dir₁ dir₂ : ConfigDir Text} {revision revision₁ revision₂ : ConfigRevision}
  {files files₁ files₂ : List (String × ProviderConfig)}

/-- The contents of the files that are hashed. -/
def ConfigDir.hashedFiles (dir : ConfigDir Text) : List Text :=
  dir.engine.toList ++ dir.features.toList ++ dir.providers.values

/-- Nothing that is hashed for one of the two revisions collides with what is hashed for the
other. -/
structure Digest.CollisionFree (digest : Digest Text) (lib : ConfigLibrary Text)
    (dir₁ dir₂ : ConfigDir Text) (revision₁ revision₂ : ConfigRevision) : Prop where
  file : ∀ t₁ ∈ dir₁.hashedFiles, ∀ t₂ ∈ dir₂.hashedFiles,
    digest.file t₁ = digest.file t₂ → t₁ = t₂
  providers : ∀ files₁ files₂, lib.discoverProviderConfigs dir₁ = .ok files₁ →
    lib.discoverProviderConfigs dir₂ = .ok files₂ →
    digest.text (ConfigLibrary.providersText digest dir₁ files₁) =
      digest.text (ConfigLibrary.providersText digest dir₂ files₂) →
    ConfigLibrary.providersText digest dir₁ files₁ = ConfigLibrary.providersText digest dir₂ files₂
  combined : digest.short revision₁.combined = digest.short revision₂.combined →
    revision₁.combined = revision₂.combined

/-- The two directories load alike. -/
structure SameBehaviour (lib : ConfigLibrary Text) (dir₁ dir₂ : ConfigDir Text) : Prop where
  engine : lib.loadEngineConfig dir₁ = lib.loadEngineConfig dir₂
  features : lib.loadFeaturesConfig dir₁ = lib.loadFeaturesConfig dir₂
  providers : (lib.discoverProviderConfigs dir₁).map (List.map Prod.snd) =
    (lib.discoverProviderConfigs dir₂).map (List.map Prod.snd)
  fillModel : lib.loadDefaultFillModel dir₁ = lib.loadDefaultFillModel dir₂
  execution : lib.loadValidationExecutionConfig dir₁ = lib.loadValidationExecutionConfig dir₂

/-- Each provider's file is named after it, by a name without separators. -/
def Named (lib : ConfigLibrary Text) (dir : ConfigDir Text) : Prop :=
  ∀ files, lib.discoverProviderConfigs dir = .ok files →
    ∀ f ∈ files, f.1 = f.2.providerId ∧ ':' ∉ f.1.toList ∧ '|' ∉ f.1.toList

namespace ConfigLibrary

theorem computeConfigRevision_eq_ok {label : String} {parent : Option String} {now : ℤ}
    (h : lib.computeConfigRevision digest dir label parent now = .ok revision) :
    ∃ files fillModel, lib.discoverProviderConfigs dir = .ok files ∧
      lib.loadDefaultFillModel dir = .ok fillModel ∧
      revision.revisionId = "rev_" ++ digest.short revision.combined ∧
      revision.engineConfigHash = fileHash digest dir.engine ∧
      revision.featuresConfigHash = fileHash digest dir.features ∧
      revision.providersConfigHash = digest.text (providersText digest dir files) ∧
      revision.fillModelId = fillModel.modelId ∧
      (∃ text, revision.riskLimitsHash = digest.file text) ∧
      lib.loadYaml dir.engine = .ok revision.configBundle.engine ∧
      lib.loadYaml dir.features = .ok revision.configBundle.features ∧
      lib.providerBundle dir files = .ok revision.configBundle.providers := by
  obtain ⟨engineRaw, hengine, h⟩ := Except.bind_eq_ok.mp h
  obtain ⟨featuresRaw, hfeatures, h⟩ := Except.bind_eq_ok.mp h
  obtain ⟨files, hfiles, h⟩ := Except.bind_eq_ok.mp h
  obtain ⟨risk, hrisk, h⟩ := Except.bind_eq_ok.mp h
  obtain ⟨fillModel, hfill, h⟩ := Except.bind_eq_ok.mp h
  obtain ⟨providers, hproviders, h⟩ := Except.bind_eq_ok.mp h
  cases h
  exact ⟨files, fillModel, hfiles, hfill, rfl, rfl, rfl, rfl, rfl, ⟨_, rfl⟩, hengine, hfeatures,
    hproviders⟩

theorem fileHash_colon (hhex : digest.Hexadecimal) (file : Option Text) :
    ':' ∉ (fileHash digest file).toList := by
  cases file with
  | none => exact List.not_mem_nil
  | some text => exact hhex.file_colon text

theorem fileHash_bar (hhex : digest.Hexadecimal) (file : Option Text) :
    '|' ∉ (fileHash digest file).toList := by
  cases file with
  | none => exact List.not_mem_nil
  | some text => exact hhex.file_bar text

theorem fileHash_inj (hhex : digest.Hexadecimal) {file₁ file₂ : Option Text}
    (hinj : ∀ t₁ t₂, file₁ = some t₁ → file₂ = some t₂ → digest.file t₁ = digest.file t₂ → t₁ = t₂)
    (h : fileHash digest file₁ = fileHash digest file₂) : file₁ = file₂ := by
  cases file₁ with
  | none =>
    cases file₂ with
    | none => rfl
    | some t₂ => exact absurd h.symm (hhex.file_ne t₂)
  | some t₁ =>
    cases file₂ with
    | none => exact absurd h (hhex.file_ne t₁)
    | some t₂ => rw [hinj t₁ t₂ rfl rfl h]

/-- The parts of the text of a revision. -/
theorem combined_inj (hhex : digest.Hexadecimal) {label₁ label₂ : String}
    {parent₁ parent₂ : Option String} {now₁ now₂ : ℤ}
    (h₁ : lib.computeConfigRevision digest dir₁ label₁ parent₁ now₁ = .ok revision₁)
    (h₂ : lib.computeConfigRevision digest dir₂ label₂ parent₂ now₂ = .ok revision₂)
    (h : revision₁.combined = revision₂.combined) :
    revision₁.engineConfigHash = revision₂.engineConfigHash ∧
      revision₁.featuresConfigHash = revision₂.featuresConfigHash ∧
      revision₁.providersConfigHash = revision₂.providersConfigHash ∧
      revision₁.fillModelId = revision₂.fillModelId := by
  obtain ⟨_, _, -, -, -, heng₁, hfeat₁, hprov₁, -, ⟨_, hrisk₁⟩, -⟩ :=
    computeConfigRevision_eq_ok h₁
  obtain ⟨_, _, -, -, -, heng₂, hfeat₂, hprov₂, -, ⟨_, hrisk₂⟩, -⟩ :=
    computeConfigRevision_eq_ok h₂
  have hsep : (":" : String).toList = [':'] := rfl
  obtain ⟨heng, h⟩ := Joined.text_inj hsep (heng₁ ▸ fileHash_colon hhex _)
    (heng₂ ▸ fileHash_colon hhex _) h
  obtain ⟨hfeat, h⟩ := Joined.text_inj hsep (hfeat₁ ▸ fileHash_colon hhex _)
    (hfeat₂ ▸ fileHash_colon hhex _) h
  obtain ⟨hprov, h⟩ := Joined.text_inj hsep (hprov₁ ▸ hhex.text_colon _)
    (hprov₂ ▸ hhex.text_colon _) h
  obtain ⟨-, h⟩ := Joined.text_inj hsep (hrisk₁ ▸ hhex.file_colon _)
    (hrisk₂ ▸ hhex.file_colon _) h
  exact ⟨heng, hfeat, hprov, h⟩

/-! ### The provider files -/

theorem providerPart_isPart (hhex : digest.Hexadecimal) {providerId : String}
    (hid : '|' ∉ providerId.toList) :
    Joined.IsPart '|' (providerPart digest dir providerId).toList := by
  have hbar := fileHash_bar hhex (dir.providers.get? providerId)
  simp only [providerPart, String.toList_append]
  refine ⟨by simp, ?_⟩
  simp only [List.mem_append, not_or]
  exact ⟨⟨hid, by decide⟩, hbar⟩

/-- Equal parts are of the same identifiers, with equal digests. -/
theorem providerParts_inj {ids₁ ids₂ : List String} (hids₁ : ∀ id ∈ ids₁, ':' ∉ id.toList)
    (hids₂ : ∀ id ∈ ids₂, ':' ∉ id.toList)
    (h : ids₁.map (providerPart digest dir₁) = ids₂.map (providerPart digest dir₂)) :
    ids₁ = ids₂ ∧ ∀ id ∈ ids₁, fileHash digest (dir₁.providers.get? id) =
      fileHash digest (dir₂.providers.get? id) := by
  induction ids₁ generalizing ids₂ with
  | nil =>
    cases ids₂ with
    | nil => exact ⟨rfl, List.forall_mem_nil _⟩
    | cons id ids => cases h
  | cons id₁ ids₁ ih =>
    cases ids₂ with
    | nil => cases h
    | cons id₂ ids₂ =>
      rw [List.forall_mem_cons] at hids₁ hids₂
      obtain ⟨hpart, hrest⟩ := List.cons.inj h
      have hsep : (":" : String).toList = [':'] := rfl
      obtain ⟨rfl, hhash⟩ := Joined.text_inj hsep hids₁.1 hids₂.1 hpart
      obtain ⟨rfl, hhashes⟩ := ih hids₁.2 hids₂.2 hrest
      exact ⟨rfl, List.forall_mem_cons.mpr ⟨hhash, hhashes⟩⟩

theorem mem_providerIds {id : String} :
    id ∈ providerIds files ↔ ∃ f ∈ files, f.2.providerId = id := by
  rw [providerIds, List.mem_mergeSort, List.mem_map]

/-- The identifiers of the providers are the names of their files. -/
theorem providerIds_perm (h : Named lib dir)
    (hfiles : lib.discoverProviderConfigs dir = .ok files) :
    (providerIds files).Perm dir.providers.keys := by
  rw [← keys_discovered hfiles]
  refine (List.mergeSort_perm _ _).trans (List.Perm.of_eq ?_)
  exact List.map_congr_left fun f hf => (h files hfiles f hf).1.symm

theorem keys_eq_of_perm (h : dir₁.providers.keys.Perm dir₂.providers.keys) :
    dir₁.providers.keys = dir₂.providers.keys := by
  refine h.eq_of_pairwise (fun a b _ _ hab hba => absurd hba (lt_asymm hab))
    (List.pairwise_map.mp dir₁.sorted) (List.pairwise_map.mp dir₂.sorted)

theorem providers_eq_of_named (hhex : digest.Hexadecimal) (hnamed₁ : Named lib dir₁)
    (hnamed₂ : Named lib dir₂) (hfiles₁ : lib.discoverProviderConfigs dir₁ = .ok files₁)
    (hfiles₂ : lib.discoverProviderConfigs dir₂ = .ok files₂)
    (hfree : ∀ t₁ ∈ dir₁.providers.values, ∀ t₂ ∈ dir₂.providers.values,
      digest.file t₁ = digest.file t₂ → t₁ = t₂)
    (h : providersText digest dir₁ files₁ = providersText digest dir₂ files₂) :
    dir₁.providers = dir₂.providers := by
  have hids₁ : ∀ id ∈ providerIds files₁, ':' ∉ id.toList ∧ '|' ∉ id.toList := by
    intro id hid
    obtain ⟨f, hf, rfl⟩ := mem_providerIds.mp hid
    obtain ⟨hname, hseps⟩ := hnamed₁ files₁ hfiles₁ f hf
    exact hname ▸ hseps
  have hids₂ : ∀ id ∈ providerIds files₂, ':' ∉ id.toList ∧ '|' ∉ id.toList := by
    intro id hid
    obtain ⟨f, hf, rfl⟩ := mem_providerIds.mp hid
    obtain ⟨hname, hseps⟩ := hnamed₂ files₂ hfiles₂ f hf
    exact hname ▸ hseps
  have hparts := Joined.join_inj rfl
    (List.forall_mem_map.mpr fun id hid => providerPart_isPart hhex (hids₁ id hid).2)
    (List.forall_mem_map.mpr fun id hid => providerPart_isPart hhex (hids₂ id hid).2) h
  obtain ⟨hids, hhashes⟩ := providerParts_inj (fun id hid => (hids₁ id hid).1)
    (fun id hid => (hids₂ id hid).1) hparts
  have hkeys : dir₁.providers.keys = dir₂.providers.keys :=
    keys_eq_of_perm ((providerIds_perm hnamed₁ hfiles₁).symm.trans
      (hids ▸ providerIds_perm hnamed₂ hfiles₂))
  refine Dict.eq_of_keys_of_get? hkeys fun id hid => ?_
  have hmem : id ∈ providerIds files₁ := (providerIds_perm hnamed₁ hfiles₁).mem_iff.mpr hid
  refine fileHash_inj hhex (fun t₁ t₂ ht₁ ht₂ => ?_) (hhashes id hmem)
  exact hfree t₁ (Dict.mem_values_iff.mpr ⟨id, ht₁⟩) t₂ (Dict.mem_values_iff.mpr ⟨id, ht₂⟩)

end ConfigLibrary

/-! ### The settings and the whole -/

/-- The settings agree in what is read from them beside the name of the fill model. -/
structure SettingsAgree (lib : ConfigLibrary Text) (dir₁ dir₂ : ConfigDir Text) : Prop where
  fill : ∀ fill₁ fill₂, lib.loadDefaultFillModel dir₁ = .ok fill₁ →
    lib.loadDefaultFillModel dir₂ = .ok fill₂ →
    fill₁.slippageBps = fill₂.slippageBps ∧ fill₁.feeBps = fill₂.feeBps ∧
      fill₁.fillAt = fill₂.fillAt
  execution : lib.loadValidationExecutionConfig dir₁ = lib.loadValidationExecutionConfig dir₂

/-- Two directories with one revision identifier load alike exactly if their settings agree and,
where a provider's file is not named after it, their providers. -/
theorem sameBehaviour_iff (hhex : digest.Hexadecimal)
    (hfree : digest.CollisionFree lib dir₁ dir₂ revision₁ revision₂) {label₁ label₂ : String}
    {parent₁ parent₂ : Option String} {now₁ now₂ : ℤ}
    (h₁ : lib.computeConfigRevision digest dir₁ label₁ parent₁ now₁ = .ok revision₁)
    (h₂ : lib.computeConfigRevision digest dir₂ label₂ parent₂ now₂ = .ok revision₂)
    (hid : revision₁.revisionId = revision₂.revisionId) :
    SameBehaviour lib dir₁ dir₂ ↔ SettingsAgree lib dir₁ dir₂ ∧
      (¬ (Named lib dir₁ ∧ Named lib dir₂) →
        (lib.discoverProviderConfigs dir₁).map (List.map Prod.snd) =
          (lib.discoverProviderConfigs dir₂).map (List.map Prod.snd)) := by
  obtain ⟨files₁, fill₁, hfiles₁, hfill₁, hid₁, heng₁, hfeat₁, hprov₁, hmodel₁, -⟩ :=
    ConfigLibrary.computeConfigRevision_eq_ok h₁
  obtain ⟨files₂, fill₂, hfiles₂, hfill₂, hid₂, heng₂, hfeat₂, hprov₂, hmodel₂, -⟩ :=
    ConfigLibrary.computeConfigRevision_eq_ok h₂
  have hcombined : revision₁.combined = revision₂.combined := by
    rw [hid₁, hid₂] at hid
    exact hfree.combined (String.append_right_inj _ |>.mp hid)
  obtain ⟨heng, hfeat, hprov, hmodel⟩ := ConfigLibrary.combined_inj hhex h₁ h₂ hcombined
  have hengine : dir₁.engine = dir₂.engine := by
    refine ConfigLibrary.fileHash_inj hhex (fun t₁ t₂ ht₁ ht₂ => ?_) (heng₁ ▸ heng₂ ▸ heng)
    exact hfree.file t₁ (by simp [ConfigDir.hashedFiles, ht₁]) t₂
      (by simp [ConfigDir.hashedFiles, ht₂])
  have hfeatures : dir₁.features = dir₂.features := by
    refine ConfigLibrary.fileHash_inj hhex (fun t₁ t₂ ht₁ ht₂ => ?_) (hfeat₁ ▸ hfeat₂ ▸ hfeat)
    exact hfree.file t₁ (by simp [ConfigDir.hashedFiles, ht₁]) t₂
      (by simp [ConfigDir.hashedFiles, ht₂])
  have htext := hfree.providers files₁ files₂ hfiles₁ hfiles₂ (hprov₁ ▸ hprov₂ ▸ hprov)
  constructor
  · intro h
    refine ⟨⟨fun fill₁ fill₂ hfill₁ hfill₂ => ?_, h.execution⟩, fun _ => h.providers⟩
    rw [h.fillModel, hfill₂] at hfill₁
    cases hfill₁
    exact ⟨rfl, rfl, rfl⟩
  · rintro ⟨hsettings, hproviders⟩
    refine ⟨?_, ?_, ?_, ?_, hsettings.execution⟩
    · rw [ConfigLibrary.loadEngineConfig, hengine]
      rfl
    · rw [ConfigLibrary.loadFeaturesConfig, hfeatures]
      rfl
    · by_cases hnamed : Named lib dir₁ ∧ Named lib dir₂
      · have heq := ConfigLibrary.providers_eq_of_named hhex hnamed.1 hnamed.2 hfiles₁ hfiles₂
          (fun t₁ ht₁ t₂ ht₂ => hfree.file t₁ (List.mem_append_right _ ht₁) t₂
            (List.mem_append_right _ ht₂)) htext
        rw [ConfigLibrary.discoverProviderConfigs, heq]
        rfl
      · exact hproviders hnamed
    · obtain ⟨hslippage, hfee, hfillAt⟩ := hsettings.fill fill₁ fill₂ hfill₁ hfill₂
      rw [hfill₁, hfill₂]
      rw [hmodel₁, hmodel₂] at hmodel
      cases fill₁
      cases fill₂
      cases hslippage
      cases hfee
      cases hfillAt
      cases hmodel
      rfl

end

/-! ### Two settings under one identifier -/

/-- A digest that tells the files of the small directory apart. -/
def sampleDigest : Digest Yaml where
  file
    | .map (("provider_id", .str name) :: _) => if name ∈ sampleNames then name else "0"
    | .map (("engine", _) :: _) => "e"
    | .map (("version", _) :: _) => "f"
    | _ => "0"
  text _ := "p"
  short s := s

theorem sampleDigest_hexadecimal : sampleDigest.Hexadecimal := by
  have hfile : ∀ y, sampleDigest.file y ∈ "e" :: "f" :: "0" :: sampleNames := by
    intro y
    simp only [sampleDigest]
    split
    · split
      · next h => exact .tail _ (.tail _ (.tail _ h))
      · simp
    all_goals simp
  have hnames : ∀ s ∈ "e" :: "f" :: "0" :: sampleNames,
      s ≠ "" ∧ ':' ∉ s.toList ∧ '|' ∉ s.toList := by decide
  exact {
    file_ne := fun y => (hnames _ (hfile y)).1
    file_colon := fun y => (hnames _ (hfile y)).2.1
    file_bar := fun y => (hnames _ (hfile y)).2.2
    text_colon := fun _ => show ':' ∉ "p".toList by decide }

/-- The small directory with other settings. -/
def sampleSettings (settings : Yaml) : ConfigDir Yaml :=
  { sampleDir "ema" with settings := some settings }

theorem sampleSettings_file (settings settings' : Yaml) :
    ∀ t₁ ∈ (sampleSettings settings).hashedFiles, ∀ t₂ ∈ (sampleSettings settings').hashedFiles,
      sampleDigest.file t₁ = sampleDigest.file t₂ → t₁ = t₂ := by
  have hnodup : ((sampleSettings settings).hashedFiles.map sampleDigest.file).Nodup := by
    have hmap : (sampleSettings settings).hashedFiles.map sampleDigest.file =
        "e" :: "f" :: sampleNames := rfl
    rw [hmap]
    decide
  exact fun t₁ ht₁ t₂ ht₂ h => List.inj_on_of_nodup_map hnodup ht₁ ht₂ h

theorem sampleSettings_free {settings settings' : Yaml} {revision₁ revision₂ : ConfigRevision}
    (h : revision₁.combined = revision₂.combined) :
    sampleDigest.CollisionFree treeLibrary (sampleSettings settings) (sampleSettings settings')
      revision₁ revision₂ where
  file := sampleSettings_file settings settings'
  providers files₁ files₂ hfiles₁ hfiles₂ _ := by
    have hfiles : Except.ok files₁ = Except.ok files₂ := hfiles₁.symm.trans hfiles₂
    cases hfiles
    rfl
  combined _ := h

theorem sampleSettings_named (settings : Yaml) : Named treeLibrary (sampleSettings settings) := by
  intro files hfiles
  have heq : Except.ok files = Except.ok (sampleBase "ema").files :=
    hfiles.symm.trans (sampleBase "ema").discovered
  cases heq
  have hseps : ∀ name ∈ sampleNames, ':' ∉ name.toList ∧ '|' ∉ name.toList := by decide
  exact List.forall_mem_map.mpr fun name hname => ⟨rfl, hseps name hname⟩

def wideSlippage : Yaml :=
  .map [("fill_models", .map [("models", .map [("close_price_v1",
    .map [("slippage_bps", .int 50), ("fee_bps", .int 10), ("fill_at", .str "close")])])])]

/-- Settings with the default written out. -/
def plainSettings : Yaml := .map [("validation", .map [("max_bars_in_trade", .int 48)])]

theorem not_sameBehaviour_slippage : ∃ revision₁ revision₂,
    treeLibrary.computeConfigRevision sampleDigest (sampleSettings (.map [])) "auto" none 0 =
      .ok revision₁ ∧
    treeLibrary.computeConfigRevision sampleDigest (sampleSettings wideSlippage) "auto" none 0 =
      .ok revision₂ ∧
    sampleDigest.CollisionFree treeLibrary (sampleSettings (.map [])) (sampleSettings wideSlippage)
      revision₁ revision₂ ∧
    revision₁.revisionId = revision₂.revisionId ∧
    ¬ SameBehaviour treeLibrary (sampleSettings (.map [])) (sampleSettings wideSlippage) := by
  refine ⟨_, _, rfl, rfl, sampleSettings_free rfl, rfl, fun h => ?_⟩
  have hslippage := congrArg (Except.map FillModel.slippageBps) h.fillModel
  exact absurd hslippage (by decide +kernel)

/-- Settings that write a default out leave the identifier and the behaviour. -/
theorem sameBehaviour_plainSettings : SameBehaviour treeLibrary (sampleSettings (.map []))
    (sampleSettings plainSettings) := by
  obtain ⟨revision₁, revision₂, h₁, h₂, hcombined, hid⟩ : ∃ revision₁ revision₂,
      treeLibrary.computeConfigRevision sampleDigest (sampleSettings (.map [])) "auto" none 0 =
        .ok revision₁ ∧
      treeLibrary.computeConfigRevision sampleDigest (sampleSettings plainSettings) "auto" none 0 =
        .ok revision₂ ∧
      revision₁.combined = revision₂.combined ∧ revision₁.revisionId = revision₂.revisionId :=
    ⟨_, _, rfl, rfl, rfl, rfl⟩
  refine (sameBehaviour_iff sampleDigest_hexadecimal (sampleSettings_free hcombined) h₁ h₂ hid).mpr
    ⟨⟨fun fill₁ fill₂ hfill₁ hfill₂ => ?_, by decide +kernel⟩,
      fun h => absurd ⟨sampleSettings_named _, sampleSettings_named _⟩ h⟩
  have hfill : Except.ok fill₁ = Except.ok fill₂ := hfill₁.symm.trans hfill₂
  cases hfill
  exact ⟨rfl, rfl, rfl⟩

end TradingPlatform
