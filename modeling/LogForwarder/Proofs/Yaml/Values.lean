import LogForwarder.Proofs.Value.Members
import LogForwarder.Proofs.Yaml.Nodes
import LogForwarder.Yaml.Datum

/-!
# Streams read back

What a stream of documents spells, as values. A value that is written is read back as itself, with
the types of its scalars, if its integers have 64 bits, it has no floating point numbers, no key
stands twice in a map, and its collections nest no deeper than a document may
(`values?_writeStream`).
-/

namespace LogForwarder.Yaml

namespace Datum

mutual

/-- The value that data are. Those with a local tag, or with a key that is no text, are none. -/
def value? : Datum → Option Value
  | .null => some .null
  | .bool b => some (.bool b)
  | .int n => some (.int n)
  | .float x => some (.float x)
  | .text s => some (.str s)
  | .list items => (values? items).map .list
  | .map entries => (members? entries).map .map
  | .tagged _ _ => none

/-- The values that the items of a list are. -/
def values? : List Datum → Option (List Value)
  | [] => some []
  | x :: xs => do return (← value? x) :: (← values? xs)

/-- The members that the entries of a mapping are. -/
def members? : List (Datum × Datum) → Option Members
  | [] => some []
  | (.text key, x) :: entries => do return (key, ← value? x) :: (← members? entries)
  | _ :: _ => none

end

mutual

/-- The data that a value is. -/
def ofValue : Value → Datum
  | .null => .null
  | .bool b => .bool b
  | .int n => .int n
  | .float x => .float x
  | .str s => .text s
  | .list xs => .list (ofItems xs)
  | .map ms => .map (ofMembers ms)

/-- The data of the items of a list. -/
def ofItems : List Value → List Datum
  | [] => []
  | v :: vs => ofValue v :: ofItems vs

/-- The data of the members of a map. -/
def ofMembers : List (String × Value) → List (Datum × Datum)
  | [] => []
  | (key, v) :: ms => (.text key, ofValue v) :: ofMembers ms

end

mutual

theorem value?_ofValue (v : Value) : value? (ofValue v) = some v := by
  match v with
  | .null | .bool _ | .int _ | .float _ | .str _ => rfl
  | .list xs => rw [ofValue, value?, values?_ofItems]; rfl
  | .map ms => rw [ofValue, value?, members?_ofMembers]; rfl

theorem values?_ofItems (xs : List Value) : values? (ofItems xs) = some xs := by
  match xs with
  | [] => rfl
  | v :: vs => rw [ofItems, values?, value?_ofValue, values?_ofItems]; rfl

theorem members?_ofMembers (ms : List (String × Value)) : members? (ofMembers ms) = some ms := by
  match ms with
  | [] => rfl
  | (key, v) :: ms => rw [ofMembers, members?, value?_ofValue, members?_ofMembers]; rfl

end

end Datum

/-- The values that the documents of a stream spell. -/
def values? (text : String) : Option (List Value) := do
  (← Document.readStream? text).mapM fun node => do (← Datum.ofDocument? ⟨some node⟩).value?

/-! ## Values that documents can spell -/

mutual

/-- Whether a document can spell a value at a depth. -/
def isPlain : Nat → Value → Bool
  | _, .null | _, .bool _ | _, .str _ => true
  | _, .int n => fits64 n
  | _, .float _ => false
  | 0, .list _ | 0, .map _ => false
  | depth + 1, .list xs => arePlainItems depth xs
  | depth + 1, .map ms => decide (Members.keys ms).Nodup && arePlainMembers depth ms

/-- Whether a document can spell the items of a list. -/
def arePlainItems (depth : Nat) : List Value → Bool
  | [] => true
  | v :: vs => isPlain depth v && arePlainItems depth vs

/-- Whether a document can spell the values of the members of a map. -/
def arePlainMembers (depth : Nat) : List (String × Value) → Bool
  | [] => true
  | m :: ms => isPlain depth m.2 && arePlainMembers depth ms

end

namespace Datum

variable {root : Node}

theorem ofTaggedScalar?_text (s : String) :
    ofTaggedScalar? none (styleOf s).scalarStyle s = some (.text s) := by
  have scalar : ofScalar? none (styleOf s).scalarStyle s = some (.text s) := by
    unfold ofScalar?
    cases style : styleOf s with
    | plain => simp [Style.scalarStyle, meaning_of_plain style, ofMeaning?]
    | single | double | literal => simp [Style.scalarStyle]
  simp [ofTaggedScalar?, localTag?, scalar, underTag]

theorem ofTaggedScalar?_plain {s : String} {x : Datum} (h : ofMeaning? s (meaning s) = some x) :
    ofTaggedScalar? none .plain s = some x := by
  simp [ofTaggedScalar?, localTag?, ofScalar?, h, underTag]

theorem any_same_ofMembers {key : String} {ms : Members} (h : key ∉ ms.keys) :
    (ofMembers ms).any (fun e => same (.text key) e.1) = false := by
  induction ms with
  | nil => rfl
  | cons m ms ih =>
    obtain ⟨other, v⟩ := m
    obtain ⟨hne, hms⟩ := not_or.mp (List.mem_cons.not.mp h)
    have differs : same (.text key) (.text other) = false := by
      rw [same]
      exact beq_false_of_ne hne
    rw [ofMembers, List.any_cons, differs, ih hms]
    rfl

/-- Keys that differ are texts that differ. -/
theorem distinct?_ofMembers {ms : Members} (h : ms.keys.Nodup) :
    distinct? (ofMembers ms) = some (ofMembers ms) := by
  induction ms with
  | nil => rfl
  | cons m ms ih =>
    obtain ⟨key, v⟩ := m
    obtain ⟨hkey, hms⟩ := List.nodup_cons.mp h
    rw [ofMembers, distinct?, ih hms]
    simp only [Option.bind_eq_bind, Option.bind_some, any_same_ofMembers hkey]
    rfl

variable {depth : Nat}

theorem ofNode_scalar {style : ScalarStyle} {s : String} :
    ofNode root depth (.scalar none style s) = monadLift (ofTaggedScalar? none style s) := by
  cases depth <;> rfl

/-- A scalar that is no text spells what its text without quotes means. -/
theorem ofNode_spelling {v : Value} (node : Node.ofValue v = .scalar none .plain (spelling v))
    (h : ofMeaning? (spelling v) (meaning (spelling v)) = some (ofValue v)) :
    ofNode root depth (Node.ofValue v) = pure (ofValue v) := by
  rw [node, ofNode_scalar, ofTaggedScalar?_plain h]
  rfl

theorem ofNode_sequence {items : List Node} :
    ofNode root (depth + 1) (.sequence none items) =
      items.mapM (ofNode root depth) >>= fun xs => pure (.list xs) := rfl

theorem ofNode_mapping {entries : List (Node × Node)} :
    ofNode root (depth + 1) (.mapping none entries) =
      (entries.mapM fun (key, value) => do
        return (← ofNode root depth key, ← ofNode root depth value)) >>= fun xs => do
          return .map (← distinct? xs) := rfl

mutual

/-- The node of a plain value spells the value, and follows no reference. -/
theorem ofNode_ofValue (v : Value) {depth : Nat} (h : isPlain depth v = true) :
    ofNode root depth (Node.ofValue v) = pure (ofValue v) := by
  match v with
  | .null | .bool true | .bool false => exact ofNode_spelling rfl rfl
  | .int n =>
    have fits : fits64 n = true := by
      cases depth <;> exact h
    exact ofNode_spelling rfl (by rw [spelling, meaning_decimal fits]; rfl)
  | .str s =>
    rw [Node.ofValue, ofNode_scalar, ofTaggedScalar?_text]
    rfl
  | .float x => cases depth <;> cases h
  | .list xs =>
    cases depth with
    | zero => cases h
    | succ depth => rw [Node.ofValue, ofNode_sequence, ofNode_ofItems xs h]; rfl
  | .map ms =>
    cases depth with
    | zero => cases h
    | succ depth =>
      obtain ⟨hkeys, h⟩ := Bool.and_eq_true_iff.mp h
      have distinct := distinct?_ofMembers (of_decide_eq_true hkeys)
      rw [Node.ofValue, ofNode_mapping, ofNode_ofMembers ms h, pure_bind, distinct]
      rfl

theorem ofNode_ofItems (xs : List Value) {depth : Nat} (h : arePlainItems depth xs = true) :
    (Node.ofItems xs).mapM (ofNode root depth) = pure (ofItems xs) := by
  match xs with
  | [] => rfl
  | v :: vs =>
    obtain ⟨hv, hvs⟩ := Bool.and_eq_true_iff.mp h
    rw [Node.ofItems, List.mapM_cons, ofNode_ofValue v hv, ofNode_ofItems vs hvs]
    rfl

theorem ofNode_ofMembers (ms : List (String × Value)) {depth : Nat}
    (h : arePlainMembers depth ms = true) :
    ((Node.ofMembers ms).mapM fun (key, value) => do
      return (← ofNode root depth key, ← ofNode root depth value)) = pure (ofMembers ms) := by
  match ms with
  | [] => rfl
  | (key, v) :: ms =>
    obtain ⟨hv, hms⟩ := Bool.and_eq_true_iff.mp h
    rw [Node.ofMembers, List.mapM_cons, ofNode_ofMembers ms hms]
    simp only [ofNode_scalar, ofTaggedScalar?_text, ofNode_ofValue v hv]
    rfl

end

end Datum

theorem Datum.ofDocument?_ofValue {v : Value} (h : isPlain Datum.depthLimit v = true) :
    Datum.ofDocument? ⟨some (Node.ofValue v)⟩ = some (Datum.ofValue v) := by
  unfold Datum.ofDocument?
  simp only [Datum.ofNode_ofValue v h]
  rfl

/-- **Streams keep plain values.** The stream of plain values spells just these values, in their
order. -/
theorem values?_writeStream {vs : List Value}
    (h : ∀ v ∈ vs, isPlain Datum.depthLimit v = true) : values? (writeStream vs) = some vs := by
  rw [values?, Document.readStream?_writeStream]
  show (vs.map Node.ofValue).mapM _ = _
  induction vs with
  | nil => rfl
  | cons v vs ih =>
    obtain ⟨hv, hvs⟩ := List.forall_mem_cons.mp h
    rw [List.map_cons, List.mapM_cons, ih hvs, Datum.ofDocument?_ofValue hv]
    show Option.bind (Datum.ofValue v).value? _ = _
    rw [Datum.value?_ofValue]
    rfl

end LogForwarder.Yaml
