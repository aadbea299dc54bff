import LogForwarder.Proofs.Workload.Loading

/-!
# Defaults of workloads

What is taken for the members of a workload that its manifest omits.

1. Each type lists its defaults, those of its parts included. They are kept by what is read of the
   type once the parts that it leaves open are completed (`ForwarderSpec.keeps`,
   `CollectionSpec.keeps`).
2. An object that is given as maps loads with any of its defaults written out, as a workload that
   is completed to the same (`Forwarder.writeOut_loads`, `Collection.writeOut_loads`).
-/

namespace LogForwarder

open Schema

/-! ## Backends -/

namespace ElasticSearchSpec

/-- What is taken for the members that a manifest omits. -/
def defaults : List Default :=
  [ ⟨["url"], .str ({} : ElasticSearchSpec).url⟩,
    ⟨["authType"], .str AuthType.basic.text⟩,
    ⟨["index"], .str ({} : ElasticSearchSpec).index⟩,
    ⟨["secretRef"], .str elasticSecret⟩ ]

/-- The settings with the secret named that they fall back on. -/
def completed (e : ElasticSearchSpec) : ElasticSearchSpec :=
  { e with secretRef := some e.secretName }

theorem looksThrough_secretRef :
    LooksThrough (fun v => (ofValue v).completed) "secretRef"
      (fun v => (v.asOption Value.asText).getD elasticSecret) := by
  intro v v' hothers hself
  simp only [ofValue, completed, secretName, hself, hothers, ne_eq, String.reduceEq,
    not_false_eq_true]

theorem keeps : ∀ d ∈ defaults, Keeps schema (fun v => (ofValue v).completed) d := by
  refine List.forall_mem_cons.mpr ⟨?url, List.forall_mem_cons.mpr ⟨?authType,
    List.forall_mem_cons.mpr ⟨?index, List.forall_mem_singleton.mpr ?secretRef⟩⟩⟩
  case url => exact keeps_filledIn (by decide) (.head _) rfl rfl rfl
  case authType => exact keeps_filledIn (by decide) (.tail _ (.head _)) rfl rfl rfl
  case index => exact keeps_filledIn (by decide) (.tail _ (.tail _ (.head _))) rfl rfl rfl
  case secretRef =>
    exact keeps_fallback (by decide) (.tail _ (.tail _ (.tail _ (.head _)))) rfl rfl rfl
      looksThrough_secretRef rfl

end ElasticSearchSpec

namespace BackendSpec

/-- What is taken for the members that a manifest omits. -/
def defaults : List Default :=
  [⟨["type"], .str BackendType.elasticsearch.text⟩, ⟨["elasticSearch"], .map []⟩] ++
  ElasticSearchSpec.defaults.map (.under "elasticSearch")

/-- The backend with its settings completed. -/
def completed (b : BackendSpec) : BackendSpec :=
  { b with elasticSearch := b.elasticSearch.completed }

theorem looksThrough_elasticSearch :
    LooksThrough (fun v => (ofValue v).completed) "elasticSearch"
      (fun v => (ElasticSearchSpec.ofValue v).completed) := by
  intro v v' hothers hself
  simp only [ofValue, completed, hself, hothers, ne_eq, String.reduceEq, not_false_eq_true]

theorem keeps : ∀ d ∈ defaults, Keeps schema (fun v => (ofValue v).completed) d := by
  refine List.forall_mem_append.mpr ⟨List.forall_mem_cons.mpr ⟨?type,
    List.forall_mem_singleton.mpr ?block⟩, List.forall_mem_map.mpr fun d hd => ?settings⟩
  case type => exact keeps_filledIn (by decide) (.head _) rfl rfl rfl
  case block => exact keeps_filledIn (by decide) (.tail _ (.head _)) rfl rfl rfl
  case settings =>
    exact (ElasticSearchSpec.keeps d hd).under (by decide) (.tail _ (.head _))
      (.inr ⟨_, rfl, rfl⟩) looksThrough_elasticSearch

end BackendSpec

/-! ## Specifications -/

namespace OcmSpec

/-- What is taken for the members that a manifest omits. -/
def defaults : List Default :=
  [ ⟨["pollInternalMinutes"], .int defaultPollInterval.toNat⟩,
    ⟨["secretRef"], .str ocmSecret⟩ ]

theorem keeps : ∀ d ∈ defaults, Keeps schema ofValue d := by
  refine List.forall_mem_cons.mpr ⟨?minutes, List.forall_mem_singleton.mpr ?secretRef⟩
  case minutes =>
    have hholds : IntegerKind.unsigned32.holds defaultPollInterval.toNat := by decide
    have hread : (Schema.integer .unsigned32).ofValue (.int defaultPollInterval.toNat) =
        .ok (.int defaultPollInterval.toNat) := by
      rw [Schema.ofValue, if_pos hholds]
    exact keeps_filledIn (by decide) (.tail _ (.head _)) rfl hread rfl
  case secretRef => exact keeps_filledIn (by decide) (.tail _ (.tail _ (.head _))) rfl rfl rfl

end OcmSpec

namespace ForwarderSpec

/-- What is taken for the members that a manifest omits. -/
def defaults : List Default :=
  [ ⟨["forwarderVersion"], .str defaultForwarderVersion⟩,
    ⟨["backend"], .map []⟩,
    ⟨["debug"], .bool false⟩ ] ++
  OcmSpec.defaults.map (.under "ocm") ++
  BackendSpec.defaults.map (.under "backend")

/-- The specification with its backend completed. -/
def completed (s : ForwarderSpec) : ForwarderSpec := { s with backend := s.backend.completed }

theorem looksThrough_ocm :
    LooksThrough (fun v => (ofValue v).completed) "ocm" OcmSpec.ofValue := by
  intro v v' hothers hself
  simp only [ofValue, completed, hself, hothers, ne_eq, String.reduceEq, not_false_eq_true]

theorem looksThrough_backend :
    LooksThrough (fun v => (ofValue v).completed) "backend"
      (fun v => (BackendSpec.ofValue v).completed) := by
  intro v v' hothers hself
  simp only [ofValue, completed, hself, hothers, ne_eq, String.reduceEq, not_false_eq_true]

theorem keeps : ∀ d ∈ defaults, Keeps schema (fun v => (ofValue v).completed) d := by
  refine List.forall_mem_append.mpr ⟨List.forall_mem_append.mpr ⟨?own,
    List.forall_mem_map.mpr fun d hd => ?ocm⟩, List.forall_mem_map.mpr fun d hd => ?backend⟩
  case own =>
    refine List.forall_mem_cons.mpr ⟨?version, List.forall_mem_cons.mpr ⟨?block,
      List.forall_mem_singleton.mpr ?debug⟩⟩
    case version => exact keeps_filledIn (by decide) (.tail _ (.head _)) rfl rfl rfl
    case block =>
      exact keeps_filledIn (by decide) (.tail _ (.tail _ (.tail _ (.head _)))) rfl rfl rfl
    case debug =>
      exact keeps_filledIn (by decide) (.tail _ (.tail _ (.tail _ (.tail _ (.head _))))) rfl rfl rfl
  case ocm =>
    exact (OcmSpec.keeps d hd).under (by decide) (.tail _ (.tail _ (.head _))) (.inl rfl)
      looksThrough_ocm
  case backend =>
    exact (BackendSpec.keeps d hd).under (by decide) (.tail _ (.tail _ (.tail _ (.head _))))
      (.inr ⟨_, rfl, rfl⟩) looksThrough_backend

end ForwarderSpec

namespace CollectionSpec

/-- What is taken for the members that a manifest omits. -/
def defaults : List Default :=
  [ ⟨["provider"], .str Provider.rosa.text⟩,
    ⟨["forwarderNamespace"], .str defaultForwarderNamespace⟩,
    ⟨["backend"], .map []⟩ ] ++
  BackendSpec.defaults.map (.under "backend")

/-- The specification with its backend completed. -/
def completed (s : CollectionSpec) : CollectionSpec := { s with backend := s.backend.completed }

theorem looksThrough_backend :
    LooksThrough (fun v => (ofValue v).completed) "backend"
      (fun v => (BackendSpec.ofValue v).completed) := by
  intro v v' hothers hself
  simp only [ofValue, completed, hself, hothers, ne_eq, String.reduceEq, not_false_eq_true]

theorem keeps : ∀ d ∈ defaults, Keeps schema (fun v => (ofValue v).completed) d := by
  refine List.forall_mem_append.mpr ⟨List.forall_mem_cons.mpr ⟨?provider,
    List.forall_mem_cons.mpr ⟨?objectNamespace, List.forall_mem_singleton.mpr ?block⟩⟩,
    List.forall_mem_map.mpr fun d hd => ?backend⟩
  case provider => exact keeps_filledIn (by decide) (.head _) rfl rfl rfl
  case objectNamespace => exact keeps_filledIn (by decide) (.tail _ (.head _)) rfl rfl rfl
  case block => exact keeps_filledIn (by decide) (.tail _ (.tail _ (.head _))) rfl rfl rfl
  case backend =>
    exact (BackendSpec.keeps d hd).under (by decide) (.tail _ (.tail _ (.head _)))
      (.inr ⟨_, rfl, rfl⟩) looksThrough_backend

end CollectionSpec

/-! ## Objects -/

/-- Metadata with the namespace named that an object falls back on. -/
def ObjectMeta.completed (default : String) (m : ObjectMeta) : ObjectMeta :=
  { m with objectNamespace := some (m.objectNamespace.getD default) }

theorem ObjectMeta.looksThrough_namespace (default : String) :
    LooksThrough (fun v => (ofValue v).completed default) "namespace"
      (fun v => (v.asOption Value.asText).getD default) := by
  intro v v' hothers hself
  simp only [ofValue, completed, hself, hothers, ne_eq, String.reduceEq, not_false_eq_true]

theorem ObjectMeta.keeps_namespace (default : String) :
    Keeps schema (fun v => (ofValue v).completed default) ⟨["namespace"], .str default⟩ :=
  keeps_fallback (by decide)
    (.tail _ (.tail _ (.tail _ (.tail _ (.tail _ (.tail _ (.head _))))))) rfl rfl rfl
    (looksThrough_namespace default) rfl

namespace Workload

variable {σ α : Type} [WorkloadKind σ] {complete : Workload σ → α} {v : Value} {r : Workload σ}
  {blocks : List (List String)}

/-- Whether objects load with a default written out as workloads that are completed to the same. -/
def KeptBy (complete : Workload σ → α) (d : Default) : Prop :=
  ∀ (v w : Value) (r : Workload σ), LoadsAs v r → v.Omits d.path →
    v.set? d.path d.value = some w → ∃ q, LoadsAs w q ∧ complete q = complete r

/-- One default is written out. -/
theorem LoadsAs.writeOut {d : Default} (hd : KeptBy complete d) (hin : d.StandsIn blocks)
    (h : LoadsAs v r) (hmaps : v.HasMapsAt blocks) :
    ∃ w q, v.writeOut? d = some w ∧ w.HasMapsAt blocks ∧ LoadsAs w q ∧
      complete q = complete r := by
  obtain ⟨w, hw, hmaps'⟩ := Value.exists_writeOut? hin hmaps
  by_cases homits : v.Omits d.path
  · have hset : v.set? d.path d.value = some w := by
      rw [← hw, Value.writeOut?, if_pos homits]
    obtain ⟨q, hq, hsame⟩ := hd v w r h homits hset
    exact ⟨w, q, hw, hmaps', hq, hsame⟩
  · have hself : v.writeOut? d = some v := if_neg homits
    exact ⟨v, r, hself, hmaps, h, rfl⟩

/-- Any defaults are written out, in any order. -/
theorem LoadsAs.writeOutAll {ds : List Default} (hds : ∀ d ∈ ds, KeptBy complete d)
    (hin : ∀ d ∈ ds, d.StandsIn blocks) (h : LoadsAs v r) (hmaps : v.HasMapsAt blocks) :
    ∃ w q, v.writeOutAll? ds = some w ∧ LoadsAs w q ∧ complete q = complete r := by
  induction ds generalizing v r with
  | nil => exact ⟨v, r, rfl, h, rfl⟩
  | cons d ds ih =>
    obtain ⟨hd, hds⟩ := List.forall_mem_cons.mp hds
    obtain ⟨hinFirst, hin⟩ := List.forall_mem_cons.mp hin
    obtain ⟨u, p, hu, hmaps', hp, hsame⟩ := h.writeOut hd hinFirst hmaps
    obtain ⟨w, q, hw, hq, hrest⟩ := ih hds hin hp hmaps'
    refine ⟨w, q, ?_, hq, hrest.trans hsame⟩
    rw [Value.writeOutAll?, List.foldlM_cons, hu]
    exact hw

end Workload

namespace Forwarder

/-- What is taken for the members that the manifest of a forwarder omits. -/
def defaults : List Default :=
  ForwarderSpec.defaults.map (.under "spec") ++
  [Default.under "metadata" ⟨["namespace"], .str defaultNamespace⟩]

example : defaults =
    [ ⟨["spec", "forwarderVersion"], .str "latest"⟩,
      ⟨["spec", "backend"], .map []⟩,
      ⟨["spec", "debug"], .bool false⟩,
      ⟨["spec", "ocm", "pollInternalMinutes"], .int 5⟩,
      ⟨["spec", "ocm", "secretRef"], .str "ocm-token"⟩,
      ⟨["spec", "backend", "type"], .str "elasticsearch"⟩,
      ⟨["spec", "backend", "elasticSearch"], .map []⟩,
      ⟨["spec", "backend", "elasticSearch", "url"],
        .str "https://elasticsearch-es-http.elastic-system.svc.cluster.local:9200"⟩,
      ⟨["spec", "backend", "elasticSearch", "authType"], .str "basic"⟩,
      ⟨["spec", "backend", "elasticSearch", "index"], .str "ocm_service_logs"⟩,
      ⟨["spec", "backend", "elasticSearch", "secretRef"], .str "elastic-auth"⟩,
      ⟨["metadata", "namespace"], .str "default"⟩ ] := rfl

/-- The structures of a forwarder that have defaults, or stand on the way to one. -/
def blocks : List (List String) :=
  [ [], ["metadata"], ["spec"], ["spec", "ocm"], ["spec", "backend"],
    ["spec", "backend", "elasticSearch"] ]

/-- The forwarder with what it falls back on named. -/
def completed (p : Forwarder) : Forwarder :=
  { p with metadata := p.metadata.completed defaultNamespace, spec := p.spec.completed }

theorem keptBy_completed : ∀ d ∈ defaults, Workload.KeptBy completed d := by
  have hkind : WorkloadKind.kind ForwarderSpec ≠ "" := by decide
  refine List.forall_mem_append.mpr
    ⟨List.forall_mem_map.mpr fun d hd => ?_, List.forall_mem_singleton.mpr ?_⟩
  · intro v w p h homits hset
    obtain ⟨s, hs, hsame⟩ :=
      Workload.LoadsAs.writeOut_spec hkind (ForwarderSpec.keeps d hd) h homits hset
    refine ⟨_, hs, ?_⟩
    unfold completed
    rw [hsame]
  · intro v w p h homits hset
    obtain ⟨metadata, hmetadata, hsame⟩ := Workload.LoadsAs.writeOut_metadata hkind
      (ObjectMeta.keeps_namespace defaultNamespace) h homits hset
    refine ⟨_, hmetadata, ?_⟩
    unfold completed
    rw [hsame]

theorem defaults_standIn : ∀ d ∈ defaults, d.StandsIn blocks := by decide

end Forwarder

namespace Collection

/-- What is taken for the members that the manifest of a collection omits. -/
def defaults : List Default := CollectionSpec.defaults.map (.under "spec")

/-- The structures of a collection that have defaults, or stand on the way to one. -/
def blocks : List (List String) :=
  [[], ["spec"], ["spec", "backend"], ["spec", "backend", "elasticSearch"]]

/-- The collection with what it falls back on named. -/
def completed (c : Collection) : Collection := { c with spec := c.spec.completed }

theorem keptBy_completed : ∀ d ∈ defaults, Workload.KeptBy completed d := by
  have hkind : WorkloadKind.kind CollectionSpec ≠ "" := by decide
  refine List.forall_mem_map.mpr fun d hd v w c h homits hset => ?_
  obtain ⟨s, hs, hsame⟩ :=
    Workload.LoadsAs.writeOut_spec hkind (CollectionSpec.keeps d hd) h homits hset
  refine ⟨_, hs, ?_⟩
  unfold completed
  rw [hsame]

theorem defaults_standIn : ∀ d ∈ defaults, d.StandsIn blocks := by decide

end Collection

end LogForwarder
