import LogForwarder.Proofs.Schema.Record
import LogForwarder.Proofs.Value.Path
import LogForwarder.Proofs.Value.Record
import Mathlib.Data.List.Infix

/-!
# Defaults that are written out

A default is what a member is taken for where it is omitted. Writing it out leaves what is read as
it was, or at least what a reader makes of it (`Schema.Keeps`).

1. A default can be written out where only maps stand on the way (`Value.exists_writeOut?`).
2. What is read is kept with a default which the schema fills in itself (`keeps_filledIn`), and with
   one which the reader falls back on (`keeps_fallback`).
3. It is kept so inside a record that is a member of another, also where that member has to be
   created (`Keeps.under`).
-/

namespace LogForwarder

/-- A member, by the path to it, and what it is taken for where it is omitted. -/
structure Default where
  path : List String
  value : Value
  deriving DecidableEq, Repr

namespace Default

/-- The same default inside a record that is a member of another. -/
def under (name : String) (d : Default) : Default := { d with path := name :: d.path }

/-- Whether a default stands in one of some blocks, and does not replace any of them but by an
empty map. -/
def StandsIn (blocks : List (List String)) (d : Default) : Prop :=
  (∀ q ∈ d.path.inits, q ≠ d.path → q ∈ blocks) ∧
    (d.value = .map [] ∨ ∀ q ∈ blocks, ¬d.path <+: q)

instance (blocks : List (List String)) (d : Default) : Decidable (d.StandsIn blocks) :=
  inferInstanceAs (Decidable (_ ∧ _))

end Default

namespace Value

/-- Whether a member is omitted: not there, or `null`. -/
def Omits (v : Value) (path : List String) : Prop :=
  v.get? path = none ∨ v.get? path = some .null

instance (v : Value) (path : List String) : Decidable (v.Omits path) :=
  inferInstanceAs (Decidable (_ ∨ _))

/-- The value with a default written out if it omits the member. There is no result where a value
on the way is not a map. -/
def writeOut? (v : Value) (d : Default) : Option Value :=
  if v.Omits d.path then v.set? d.path d.value else some v

/-- The value with defaults written out, one after the other. -/
def writeOutAll? (v : Value) (ds : List Default) : Option Value := ds.foldlM writeOut? v

/-- A default is written out where all blocks that there are are maps, and they stay maps. -/
theorem exists_writeOut? {v : Value} {d : Default} {blocks : List (List String)}
    (hd : d.StandsIn blocks) (h : v.HasMapsAt blocks) :
    ∃ w, v.writeOut? d = some w ∧ w.HasMapsAt blocks := by
  obtain ⟨hway, hreplaced⟩ := hd
  unfold writeOut?
  split_ifs
  · obtain ⟨w, hw⟩ := exists_set? d.value fun q x hq hne hx =>
      h q (hway q ((List.mem_inits _ _).mpr hq) hne) x hx
    refine ⟨w, hw, fun q hq x hx => ?_⟩
    rcases get?_set?_cases hw hx with hmap | hbefore | ⟨rest, rfl, hrest⟩
    · exact hmap
    · exact h q hq x hbefore
    · rcases hreplaced with hempty | hnone
      · rw [hempty] at hrest
        cases rest with
        | nil =>
          rw [get?_nil] at hrest
          exact ⟨[], (Option.some.inj hrest).symm⟩
        | cons _ _ => cases hrest
      · exact absurd (List.prefix_append d.path rest) (hnone _ hq)
  · exact ⟨v, rfl, h⟩

/-- A member of a map that is not there is taken for an empty one. -/
theorem Omits.of_map_cons {ms : Members} {key : String} {path : List String} (hpath : path ≠ [])
    (h : (Value.map ms).Omits (key :: path)) : ((ms.get? key).getD (.map [])).Omits path := by
  unfold Omits at h ⊢
  rw [get?_map_cons] at h
  cases hk : Members.get? ms key with
  | some v => rwa [hk] at h
  | none =>
    obtain ⟨other, rest, rfl⟩ := List.exists_cons_of_ne_nil hpath
    exact .inl rfl

end Value

namespace Schema

variable {α β : Type} {s : Schema} {info : RecordInfo} {members : List (MemberInfo × Schema)}
  {m : MemberInfo × Schema} {read : Value → α} {sub : Value → β} {d : Default}

/-- Whether what a reader makes of a value that was read is the same after a default was written
out. -/
structure Keeps (s : Schema) (read : Value → α) (d : Default) : Prop where
  path_ne_nil : d.path ≠ []
  keeps : ∀ v w v', s.ofValue v = .ok w → v.Omits d.path → v.set? d.path d.value = some v' →
    ∃ w', s.ofValue v' = .ok w' ∧ read w' = read w

/-- Whether a reader looks at a member only by what another reader makes of it. -/
def LooksThrough (read : Value → α) (name : String) (sub : Value → β) : Prop :=
  ∀ v v' : Value, (∀ other, other ≠ name → v'.member other = v.member other) →
    sub (v'.member name) = sub (v.member name) → read v' = read v

/-- A value is stored under a key of a record. -/
theorem set?_singleton_eq_some {v u v' : Value} {key : String}
    (h : v.set? [key] u = some v') : ∃ ms, v = .map ms ∧ v' = .map (Members.put ms key u) := by
  obtain ⟨ms, t, rfl, ht, rfl⟩ := Value.set?_cons_eq_some h
  rw [Value.set?_nil] at ht
  cases ht
  exact ⟨ms, rfl, rfl⟩

/-- A member that is omitted reads as what it settles to. -/
theorem Reads.settled?_of_omits {ms : Members} {out : Option Value}
    (homits : (Value.map ms).Omits [m.1.name]) (h : Reads m (ms.get? m.1.name) out) :
    m.1.presence.settled? = some out := by
  have hgiven : ms.get? m.1.name = none ∨ ms.get? m.1.name = some .null := by
    simpa [Value.Omits] using homits
  cases hgiven with
  | inl hnone =>
    rw [hnone] at h
    exact reads_none_iff.mp h
  | inr hnull =>
    rw [hnull] at h
    cases h with
    | given hw => exact absurd hw (ofValue_null_ne_ok _ _)
    | null _ hsettled => exact hsettled

/-- A schema reads the default that it fills in as what it would have filled in. -/
theorem keeps_filledIn (hn : (names members).Nodup) (hm : m ∈ members) {e : Value}
    (hp : m.1.presence.settled? = some (some e)) (hu : m.2.ofValue d.value = .ok e)
    (hd : d.path = [m.1.name]) : Keeps (.record info members) read d := by
  refine ⟨by rw [hd]; exact List.cons_ne_nil _ _, fun v w v' hv homits hset => ?_⟩
  rw [hd] at homits hset
  obtain ⟨ms, rfl, rfl⟩ := set?_singleton_eq_some hset
  obtain ⟨out, rfl, -, hreads⟩ := reads_of_ofValue hn hv
  have hout : out.get? m.1.name = some e := by
    have hsettled := (hreads m hm).settled?_of_omits homits
    exact (Option.some.inj (hp.symm.trans hsettled)).symm
  exact ⟨_, ofValue_put_of_get? hn hm hv hu hout, rfl⟩

theorem member_updated {out : Members} (hm : m ∈ members) (hout : arranged members out.get? = out)
    (z : Value) (name : String) :
    (Value.map (updated members out m.1.name z)).member name =
      if name = m.1.name then z else (Value.map out).member name := by
  rw [member_map, member_map, updated, get?_arranged]
  by_cases hname : name = m.1.name
  · rw [if_pos hname, if_pos hname, if_pos (hname ▸ List.mem_map_of_mem hm)]
    rfl
  · rw [if_neg hname, if_neg hname]
    conv_rhs => rw [← hout, get?_arranged]

/-- A member with a value changed is looked at only through its reader. -/
theorem LooksThrough.read_updated {out : Members} {z : Value}
    (h : LooksThrough read m.1.name sub) (hm : m ∈ members) (hout : arranged members out.get? = out)
    (hz : sub z = sub ((Value.map out).member m.1.name)) :
    read (.map (updated members out m.1.name z)) = read (.map out) := by
  refine h _ _ (fun other hne => ?_) ?_
  · rw [member_updated hm hout, if_neg hne]
  · rw [member_updated hm hout, if_pos rfl, hz]

/-- A default that stays out is read as what the reader falls back on. -/
theorem keeps_fallback (hn : (names members).Nodup) (hm : m ∈ members)
    (hp : m.1.presence = .omittable) {z : Value} (hu : m.2.ofValue d.value = .ok z)
    (hd : d.path = [m.1.name]) (hread : LooksThrough read m.1.name sub)
    (hz : sub z = sub .null) : Keeps (.record info members) read d := by
  refine ⟨by rw [hd]; exact List.cons_ne_nil _ _, fun v w v' hv homits hset => ?_⟩
  rw [hd] at homits hset
  obtain ⟨ms, rfl, rfl⟩ := set?_singleton_eq_some hset
  obtain ⟨out, rfl, harranged, hreads⟩ := reads_of_ofValue hn hv
  have hout : out.get? m.1.name = none := by
    have hsettled := (hreads m hm).settled?_of_omits homits
    rw [hp] at hsettled
    exact (Option.some.inj hsettled).symm
  refine ⟨_, ofValue_put hn hm hv hu, hread.read_updated hm harranged ?_⟩
  rw [member_map, hout, hz]
  rfl

/-- Whether an empty map stands for a member that is not given. -/
def StandsForEmpty (m : MemberInfo × Schema) : Prop :=
  m.1.presence = .required ∨ ∃ e, m.1.presence = .whenAbsent e ∧ m.2.ofValue (.map []) = .ok e

/-- Where an empty map stands for what is not given, that or what is given is read. -/
theorem Reads.ofValue_getD {o out : Option Value} (hm : StandsForEmpty m) (h : Reads m o out) :
    ∃ w, out = some w ∧ m.2.ofValue (o.getD (.map [])) = .ok w := by
  cases h with
  | given hw => exact ⟨_, rfl, hw⟩
  | null hnull _ =>
    obtain hp | ⟨e, hp, -⟩ := hm <;> rw [hp] at hnull <;> cases hnull
  | absent hsettled =>
    obtain hp | ⟨e, hp, he⟩ := hm <;> rw [hp] at hsettled <;> cases hsettled
    exact ⟨e, rfl, he⟩

/-- A default of a record is one of the record that it is a member of. -/
theorem Keeps.under (hn : (names members).Nodup) (hm : m ∈ members) (hempty : StandsForEmpty m)
    (hread : LooksThrough read m.1.name sub) (h : Keeps m.2 sub d) :
    Keeps (.record info members) read (d.under m.1.name) := by
  refine ⟨List.cons_ne_nil _ _, fun v w v' hv homits hset => ?_⟩
  obtain ⟨ms, u, rfl, hu, rfl⟩ := Value.set?_cons_eq_some hset
  obtain ⟨out, rfl, harranged, hreads⟩ := reads_of_ofValue hn hv
  obtain ⟨x, hx, hchild⟩ := (hreads m hm).ofValue_getD hempty
  obtain ⟨z, hz, hsub⟩ := h.keeps _ _ _ hchild (homits.of_map_cons h.path_ne_nil) hu
  refine ⟨_, ofValue_put hn hm hv hz, hread.read_updated hm harranged ?_⟩
  rw [member_map, hx, hsub]
  rfl

end Schema

end LogForwarder
