import LogForwarder.Cluster.Access
import LogForwarder.Proofs.Workload.Requirements

/-!
# Names in place of others

What one check says of a text decides much of what the others say of it.

1. A name of a namespace may be the value of a label, and so may a name of an object that has no
   more bytes than a label (`checkLabel_of_checkName_iff`). Where it has more, it is refused for
   its length and for nothing else (`checkLabel_eq_error_iff`).
2. So of the two checks that the name of a forwarder has to pass, the one for labels only adds its
   limit (`metadataName_refused_iff`).
3. What may follow a letter in a name leaves room for exactly as many bytes as it does not take
   itself (`checkName_append_iff_room`).
-/

namespace LogForwarder

open Identifier

variable {s t : String} {complaint : Complaint}

/-! ## Names as labels -/

theorem checkLabel_of_checkName_iff (h : checkName s = .ok ()) :
    checkLabel s = .ok () ↔ s.utf8ByteSize ≤ 63 := by
  have hboth := checkLabel_and_checkName_iff (s := s)
  rwa [and_iff_left h, and_iff_right (checkName_accepts_iff.mp h)] at hboth

theorem checkLabel_of_checkNamespace (h : checkNamespace s = .ok ()) : checkLabel s = .ok () :=
  (checkLabel_of_checkName_iff (checkName_of_checkNamespace h)).mpr
    (checkNamespace_accepts_iff.mp h).size.2

/-- The form of a name is one of a label, so only the length of a name is refused. -/
theorem checkLabel_eq_error_iff (h : checkName s = .ok ()) :
    checkLabel s = .error complaint ↔ 63 < s.utf8ByteSize ∧ complaint = .tooLong s 63 := by
  have hempty : s ≠ "" := (check_eq_ok_iff.mp h).1
  by_cases hlong : 63 < s.utf8ByteSize
  · have herror : checkLabel s = .error (.tooLong s 63) := by
      unfold checkLabel check
      rw [if_neg hempty, if_pos hlong]
    rw [herror, and_iff_right hlong, Except.error.injEq, eq_comm]
  · have hok := (checkLabel_of_checkName_iff h).mpr (by omega)
    rw [hok]
    exact ⟨nofun, fun hrefused => absurd hrefused.1 hlong⟩

/-! ## The name of a forwarder -/

theorem not_isFirstViolated_of_forall_ne {rs : List Requirement} {field : String}
    (h : ∀ r ∈ rs, r.field ≠ field) : ¬IsFirstViolated rs field := by
  rintro ⟨before, r, after, rfl, -, -, hfield⟩
  exact h r (by simp) hfield

/-- The name of a forwarder is reported exactly if it is no name, or too long for a label. -/
theorem isFirstViolated_metadataName_iff (p : Forwarder) :
    IsFirstViolated p.requirements "metadata.name" ↔
      ¬(IsSubdomain p.name ∧ p.name.utf8ByteSize ≤ 63) := by
  have hothers : ¬IsFirstViolated p.requirements.tail "metadata.name" :=
    not_isFirstViolated_of_forall_ne (by
      simp [Forwarder.requirements, BackendSpec.requirements])
  refine isFirstViolated_cons.trans ⟨?_, fun h => .inl ⟨h, rfl⟩⟩
  rintro (⟨h, -⟩ | ⟨-, h⟩)
  · exact h
  · exact absurd h hothers

/-- **The check for labels only adds its limit.** Of a forwarder whose name may name an object, the
name is refused exactly if it has more than 63 bytes, and for nothing else. -/
theorem metadataName_refused_iff {p : Forwarder} (h : checkName p.name = .ok ()) :
    p.validate = .error (.invalid "OCMLogForwarder" "metadata.name" complaint) ↔
      63 < p.name.utf8ByteSize ∧ complaint = .tooLong p.name 63 := by
  have hlong : 63 < p.name.utf8ByteSize →
      p.validate = .error (.invalid "OCMLogForwarder" "metadata.name" (.tooLong p.name 63)) := by
    intro hsize
    have herror := (checkLabel_eq_error_iff h).mpr ⟨hsize, rfl⟩
    unfold Forwarder.validate Validation.checkForwarder
    rw [herror]
    rfl
  constructor
  · intro hrefused
    have hfirst := ((p.decides.reports "OCMLogForwarder").names "metadata.name").mp ⟨_, hrefused⟩
    have hsize : 63 < p.name.utf8ByteSize := by
      by_contra hshort
      exact (isFirstViolated_metadataName_iff p).mp hfirst
        ⟨checkName_accepts_iff.mp h, by omega⟩
    cases hrefused.symm.trans (hlong hsize)
    exact ⟨hsize, rfl⟩
  · rintro ⟨hsize, rfl⟩
    exact hlong hsize

/-! ## Suffixes -/

theorem checkName_append_iff_room {limit : Nat} (h : checkName s = .ok ())
    (ht : isNameFrom true .plain t.toList) (hroom : t.utf8ByteSize + limit = 253) :
    checkName (s ++ t) = .ok () ↔ s.utf8ByteSize ≤ limit := by
  rw [checkName_append_eq_ok_iff h ht, String.utf8ByteSize_append]
  omega

/-- **Names in place of others.** A name of a namespace may name any object and be the value of a
label. A name of an object may be the value of a label if it has at most 63 bytes, so that this
limit is all that the check for labels adds to the name of a forwarder. The names of the roles and
bindings that are derived from a name are valid exactly if it leaves room for their suffixes. -/
theorem names_in_place_of_others (s : String) :
    (checkNamespace s = .ok () → checkName s = .ok () ∧ checkLabel s = .ok ()) ∧
    (checkName s = .ok () → s.utf8ByteSize ≤ 63 → checkLabel s = .ok ()) ∧
    (checkName s = .ok () → ∀ p : Forwarder, p.name = s → ∀ complaint,
      p.validate = .error (.invalid "OCMLogForwarder" "metadata.name" complaint) ↔
        63 < s.utf8ByteSize ∧ complaint = .tooLong s 63) ∧
    (checkName s = .ok () →
      (checkName (ocmRbacName s) = .ok () ↔ s.utf8ByteSize ≤ 249) ∧
      (checkName (elasticRbacName s) = .ok () ↔ s.utf8ByteSize ≤ 245)) := by
  refine ⟨fun h => ⟨checkName_of_checkNamespace h, checkLabel_of_checkNamespace h⟩,
    fun h hsize => (checkLabel_of_checkName_iff h).mpr hsize, ?_, fun h => ⟨?_, ?_⟩⟩
  · rintro h p rfl complaint
    exact metadataName_refused_iff h
  · exact checkName_append_iff_room h (by decide) (by decide)
  · exact checkName_append_iff_room h (by decide) (by decide)

/-- A name that leaves room for one suffix and not for the other, and is no label. -/
theorem name_of_length_249 :
    let s := String.ofList (List.replicate 249 'a')
    checkName s = .ok () ∧ checkName (ocmRbacName s) = .ok () ∧
      checkName (elasticRbacName s) ≠ .ok () ∧ checkLabel s ≠ .ok () := by
  intro s
  have hsize : s.utf8ByteSize = 249 := by decide +kernel
  have hname : checkName s = .ok () := by decide +kernel
  obtain ⟨-, -, -, hsuffixes⟩ := names_in_place_of_others s
  obtain ⟨hocm, helastic⟩ := hsuffixes hname
  refine ⟨hname, hocm.mpr (by omega), fun h => ?_, fun h => ?_⟩
  · have := helastic.mp h
    omega
  · have := (checkLabel_of_checkName_iff hname).mp h
    omega

end LogForwarder
