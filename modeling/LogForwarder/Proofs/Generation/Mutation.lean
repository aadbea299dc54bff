import LogForwarder.Proofs.Cluster.Draft
import LogForwarder.Proofs.Except
import LogForwarder.Proofs.Generation.Steps

/-!
# Mutation of deployments

What becomes of a deployment that is to be stored, for any draft.

1. Its containers are coerced exactly if all of them have an environment (`HasEnvironments`), and
   then nothing but their environments changes (`coerceContainers_eq_ok_iff`).
2. Otherwise the first container without one is what the deployment is refused for
   (`coerceContainers_eq_error_iff`), so that the errors are these and no others
   (`deployment_fails_iff`).
-/

namespace LogForwarder

open Mutator

namespace Draft

/-! ## Environments -/

/-- Whether a container has an environment: a list of maps. -/
def HasEnvironment (container : Value) : Prop :=
  ∃ entries, container.itemsAt? ["env"] = some entries ∧ ∀ e ∈ entries, ∃ ms, e = .map ms

/-- A container with the direct members of the entries of its environment coerced. -/
def coercedContainer (container : Value) : Value :=
  container.change ["env"] (Value.mapItems (Value.mapMembers Environment.coerce))

/-- A deployment with the direct members of the entries of its environments coerced. -/
def coerced (d : Draft) : Draft := d.change containersPath (Value.mapItems coercedContainer)

/-- Whether a deployment has a list of containers, all of them with an environment. -/
def HasEnvironments (d : Draft) : Prop :=
  ∃ containers, d.itemsAt? containersPath = some containers ∧ ∀ c ∈ containers, HasEnvironment c

variable {object : Identity} {name : String} {e e' c c' : Value} {d d' : Draft}
  {error : GenerationError}

theorem coerceEntry_eq_ok_iff :
    coerceEntry object name e = .ok e' ↔
      (∃ ms, e = .map ms) ∧ e' = e.mapMembers Environment.coerce := by
  cases e with
  | map ms =>
    constructor
    · rintro ⟨⟩
      exact ⟨⟨ms, rfl⟩, rfl⟩
    · rintro ⟨-, rfl⟩
      rfl
  | _ => exact ⟨nofun, fun ⟨⟨_, h⟩, _⟩ => nomatch h⟩

theorem eq_of_coerceEntry_eq_error (h : coerceEntry object name e = .error error) :
    error = .noEnvironment name object := by
  cases e <;> cases h
  all_goals rfl

/-- What a container is called in messages. -/
def containerName (container : Value) : String := (container.textAt? ["name"]).getD ""

/-- A container that is a map is coerced as its environment is. -/
theorem coerceContainer_map (ms : Members) :
    coerceContainer object (.map ms) =
      match (Value.map ms).itemsAt? ["env"] with
      | some entries =>
        (entries.mapM (coerceEntry object (containerName (.map ms)))).map fun entries =>
          .map (ms.put "env" (.list entries))
      | none => .error (.noEnvironment (containerName (.map ms)) object) := by
  simp only [coerceContainer, Value.itemsAt?, Value.get?_map_cons]
  cases Members.get? ms "env" with
  | none => rfl
  | some v =>
    cases v with
    | list entries =>
      let pass := entries.mapM (coerceEntry object (containerName (.map ms)))
      show (pass >>= fun entries => pure _) = pass.map _
      cases pass <;> rfl
    | _ => rfl

theorem coercedContainer_eq {ms : Members} {entries : List Value}
    (h : (Value.map ms).itemsAt? ["env"] = some entries) :
    coercedContainer (.map ms) =
      .map (ms.put "env" (.list (entries.map (Value.mapMembers Environment.coerce)))) := by
  have hset := Value.change_eq (f := Value.mapItems (Value.mapMembers Environment.coerce))
    (Value.itemsAt?_eq_some_iff.mp h)
  obtain ⟨_, u, ⟨⟩, hu, hchanged⟩ := Value.set?_cons_eq_some hset
  rw [Value.set?_nil] at hu
  cases hu
  exact hchanged

theorem coerceContainer_eq_ok_iff :
    coerceContainer object c = .ok c' ↔ HasEnvironment c ∧ c' = coercedContainer c := by
  unfold HasEnvironment
  cases c with
  | map ms =>
    rw [coerceContainer_map]
    cases henv : (Value.map ms).itemsAt? ["env"] with
    | none => exact ⟨nofun, fun ⟨⟨_, h, _⟩, _⟩ => nomatch h⟩
    | some entries =>
      rw [coercedContainer_eq henv]
      simp only [map_eq_ok, mapM_eq_ok_iff_of_step fun _ _ => coerceEntry_eq_ok_iff,
        Option.some.injEq, exists_eq_left', and_assoc, exists_and_left]
      simp only [exists_eq_left, eq_comm]
  | _ => exact ⟨nofun, fun ⟨⟨_, h, _⟩, _⟩ => nomatch h⟩

theorem eq_of_coerceContainer_map_eq_error {ms : Members}
    (h : coerceContainer object (.map ms) = .error error) :
    error = .noEnvironment (containerName (.map ms)) object := by
  rw [coerceContainer_map] at h
  cases henv : (Value.map ms).itemsAt? ["env"] with
  | none =>
    rw [henv] at h
    cases h
    rfl
  | some entries =>
    rw [henv] at h
    obtain ⟨_, _, _, _, _, he⟩ := mapM_eq_error_iff.mp (map_eq_error.mp h)
    exact eq_of_coerceEntry_eq_error he

theorem coerceContainer_eq_error_iff :
    coerceContainer object c = .error error ↔
      ((¬∃ ms, c = .map ms) ∧ error = .noContainers object) ∨
        ((∃ ms, c = .map ms) ∧ ¬HasEnvironment c ∧
          error = .noEnvironment (containerName c) object) := by
  cases c with
  | map ms =>
    have hmap : ∃ ns, Value.map ms = .map ns := ⟨ms, rfl⟩
    have hok : (∃ c', coerceContainer object (.map ms) = .ok c') ↔ HasEnvironment (.map ms) := by
      simp only [coerceContainer_eq_ok_iff, exists_and_left, exists_eq, and_true]
    rw [or_iff_right fun h => h.1 hmap, and_iff_right hmap]
    exact eq_error_iff hok fun e => eq_of_coerceContainer_map_eq_error
  | _ =>
    constructor
    · rintro ⟨⟩
      exact .inl ⟨nofun, rfl⟩
    · rintro (⟨-, rfl⟩ | ⟨⟨_, ⟨⟩⟩, -⟩)
      rfl

/-! ## Deployments -/

theorem coerced_eq {containers : List Value} (h : d.itemsAt? containersPath = some containers) :
    (Draft.store d containersPath (.list (containers.map coercedContainer))).1 = coerced d := by
  have hset := Value.change_eq (f := Value.mapItems coercedContainer)
    (Value.itemsAt?_eq_some_iff.mp h)
  exact congrArg Prod.fst (store_of_set? hset)

/-- **Containers are coerced if all of them have an environment.** -/
theorem coerceContainers_eq_ok_iff :
    coerceContainers object d = .ok d' ↔ HasEnvironments d ∧ d' = coerced d := by
  unfold coerceContainers HasEnvironments
  cases hcontainers : d.itemsAt? containersPath with
  | none => exact ⟨nofun, fun ⟨⟨_, h, _⟩, _⟩ => nomatch h⟩
  | some containers =>
    simp only [bind_eq_ok, pure_eq_ok, mapM_eq_ok_iff_of_step fun _ _ => coerceContainer_eq_ok_iff,
      Option.some.injEq, exists_eq_left']
    constructor
    · rintro ⟨_, ⟨hall, rfl⟩, rfl⟩
      exact ⟨hall, coerced_eq hcontainers⟩
    · rintro ⟨hall, rfl⟩
      exact ⟨_, ⟨hall, rfl⟩, coerced_eq hcontainers⟩

/-- Whether a container is the first of a deployment that has no environment. -/
def IsFirstWithout (d : Draft) (c : Value) : Prop :=
  ∃ before after, d.itemsAt? containersPath = some (before ++ c :: after) ∧
    (∀ b ∈ before, HasEnvironment b) ∧ ¬HasEnvironment c

/-- What a deployment is refused for, and how it is told. -/
inductive Refused (d : Draft) : GenerationError → String → Prop
  /-- There is no list of containers. -/
  | noList : d.itemsAt? containersPath = none →
      Refused d (.noContainers (identity d))
        ("unable to find container specification for object " ++ (identity d).display)
  /-- The first container without an environment is not even a map. -/
  | noMap {c : Value} : IsFirstWithout d c → (¬∃ ms, c = .map ms) →
      Refused d (.noContainers (identity d))
        ("unable to find container specification for object " ++ (identity d).display)
  /-- The first container without an environment has a name, or may have one. -/
  | noEnvironment {ms : Members} : IsFirstWithout d (.map ms) →
      Refused d (.noEnvironment (((Value.map ms).textAt? ["name"]).getD "") (identity d))
        ("unable to find environment from container " ++
          ((Value.map ms).textAt? ["name"]).getD "" ++ " for object " ++ (identity d).display)
  /-- All containers have an environment, but the deployment does not fit. -/
  | unfit {m : Mismatch} : HasEnvironments d → Deployment.ofValue (coerced d) = .error m →
      Refused d (.unfit "Deployment" (identity d) m)
        ("unable to convert object " ++ (identity d).display ++ " to " ++ "Deployment" ++ ": " ++
          m.message .json)

/-- The first container without an environment is what the containers are refused for. -/
theorem coerceContainers_eq_error_iff :
    coerceContainers object d = .error error ↔
      (d.itemsAt? containersPath = none ∧ error = .noContainers object) ∨
        ∃ c, IsFirstWithout d c ∧ coerceContainer object c = .error error := by
  unfold coerceContainers IsFirstWithout
  cases hcontainers : d.itemsAt? containersPath with
  | none =>
    constructor
    · rintro ⟨⟩
      exact .inl ⟨rfl, rfl⟩
    · rintro (⟨-, rfl⟩ | ⟨_, ⟨_, _, ⟨⟩, _⟩, _⟩)
      rfl
  | some containers =>
    simp only [reduceCtorEq, false_and, false_or, Option.some.injEq]
    constructor
    · intro h
      obtain h | ⟨_, _, ⟨⟩⟩ := bind_eq_error.mp h
      obtain ⟨before, c, after, rfl, hbefore, hc⟩ := mapM_eq_error_iff.mp h
      refine ⟨c, ⟨before, after, rfl, fun b hb => ?_, fun henv => ?_⟩, hc⟩
      · obtain ⟨b', hb'⟩ := hbefore b hb
        exact (coerceContainer_eq_ok_iff.mp hb').1
      · cases hc.symm.trans (coerceContainer_eq_ok_iff.mpr ⟨henv, rfl⟩)
    · rintro ⟨c, ⟨before, after, rfl, hbefore, -⟩, hc⟩
      have hpass : ∀ b ∈ before, ∃ b', coerceContainer object b = .ok b' := fun b hb =>
        ⟨_, coerceContainer_eq_ok_iff.mpr ⟨hbefore b hb, rfl⟩⟩
      exact bind_eq_error.mpr (.inl (mapM_eq_error_iff.mpr ⟨before, c, after, rfl, hpass, hc⟩))

/-! ## Conversion -/

/-- A deployment whose containers are coerced is read as what they are coerced to. -/
theorem convert_of_hasEnvironments (h : HasEnvironments d) :
    convert d =
      (match Deployment.ofValue (coerced d) with
        | .ok t => .ok t
        | .error m => .error (.unfit "Deployment" (identity d) m)) := by
  have hcoerced : coerceContainers (identity d) d = .ok (coerced d) :=
    coerceContainers_eq_ok_iff.mpr ⟨h, rfl⟩
  simp only [convert, hcoerced]
  rfl

theorem convert_eq_ok_iff {t : Deployment} :
    convert d = .ok t ↔ HasEnvironments d ∧ Deployment.ofValue (coerced d) = .ok t := by
  constructor
  · intro h
    obtain ⟨d', hd', -⟩ := bind_eq_ok.mp h
    obtain ⟨henvironments, -⟩ := coerceContainers_eq_ok_iff.mp hd'
    rw [convert_of_hasEnvironments henvironments] at h
    refine ⟨henvironments, ?_⟩
    split at h
    · cases h
      assumption
    · cases h
  · rintro ⟨henvironments, ht⟩
    rw [convert_of_hasEnvironments henvironments, ht]

theorem convert_eq_error_of_first (hfirst : IsFirstWithout d c)
    (hc : coerceContainer (identity d) c = .error error) : convert d = .error error :=
  bind_eq_error.mpr (.inl (coerceContainers_eq_error_iff.mpr (.inr ⟨c, hfirst, hc⟩)))

/-- A deployment cannot be converted for the reasons that it is refused for. -/
theorem convert_eq_error_iff : convert d = .error error ↔ Refused d error error.message := by
  constructor
  · intro h
    rcases bind_eq_error.mp h with hcontainers | ⟨d', hd', -⟩
    · rcases coerceContainers_eq_error_iff.mp hcontainers with ⟨hnone, rfl⟩ | ⟨c, hfirst, hc⟩
      · exact .noList hnone
      · rcases coerceContainer_eq_error_iff.mp hc with ⟨hmap, rfl⟩ | ⟨⟨ms, rfl⟩, -, rfl⟩
        · exact .noMap hfirst hmap
        · exact .noEnvironment hfirst
    · obtain ⟨henvironments, -⟩ := coerceContainers_eq_ok_iff.mp hd'
      rw [convert_of_hasEnvironments henvironments] at h
      split at h
      · cases h
      · cases h
        exact .unfit henvironments ‹_›
  · generalize error.message = text
    intro h
    cases h with
    | noList hnone =>
      exact bind_eq_error.mpr (.inl (coerceContainers_eq_error_iff.mpr (.inl ⟨hnone, rfl⟩)))
    | noMap hfirst hmap =>
      exact convert_eq_error_of_first hfirst
        (coerceContainer_eq_error_iff.mpr (.inl ⟨hmap, rfl⟩))
    | noEnvironment hfirst =>
      have ⟨_, _, _, _, hnot⟩ := hfirst
      exact convert_eq_error_of_first hfirst
        (coerceContainer_eq_error_iff.mpr (.inr ⟨⟨_, rfl⟩, hnot, rfl⟩))
    | unfit henvironments hm =>
      rw [convert_of_hasEnvironments henvironments, hm]

theorem run_deployment (request : Request) (m : Metrics) :
    ((Mutator.deployment d (some request)).run.run m).1 = (convert d).map .typed := by
  unfold Mutator.deployment
  cases convert d <;> rfl

/-- **Failures are precise.** A deployment that is to be stored fails for exactly these reasons:
the first container without an environment decides, and only where there is none the rest of the
deployment is looked at. All errors name the deployment as the draft does. -/
theorem deployment_fails_iff (d : Draft) (request : Request) (m : Metrics)
    (error : GenerationError) :
    ((Mutator.deployment d (some request)).run.run m).1 = .error error ↔
      Refused d error error.message := by
  rw [run_deployment, map_eq_error, convert_eq_error_iff]

end Draft

end LogForwarder
