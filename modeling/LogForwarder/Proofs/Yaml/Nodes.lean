import LogForwarder.Proofs.Yaml.Layout
import LogForwarder.Yaml.Node.OfTokens

/-!
# Documents read back

The tokens of a value are read as the node that stands for it, so that every text that is written
is read back as the nodes of its documents.

1. `Node.ofValue` is the node of a value: what it is, and how its texts are written.
2. `Read.reads_tokens` reads the tokens of one value, by induction on it.
3. `Document.read?_write` and `Document.readStream?_writeStream` read whole texts.
-/

namespace LogForwarder.Yaml

/-! ## The node of a value -/

mutual

/-- The node that a value is written as. -/
def Node.ofValue : Value → Node
  | .str s => .scalar none (styleOf s).scalarStyle s
  | .list xs => .sequence none (Node.ofItems xs)
  | .map ms => .mapping none (Node.ofMembers ms)
  | v => .scalar none .plain (spelling v)

/-- The nodes of the items of a list. -/
def Node.ofItems : List Value → List Node
  | [] => []
  | v :: vs => Node.ofValue v :: Node.ofItems vs

/-- The nodes of the keys and the values of a map. -/
def Node.ofMembers : List (String × Value) → List (Node × Node)
  | [] => []
  | (key, v) :: ms =>
    (.scalar none (styleOf key).scalarStyle key, Node.ofValue v) :: Node.ofMembers ms

end

/-! ## Steps of reading -/

namespace Read

variable {handles : TagHandles} {fuel : Nat} {inBlock indentless : Bool} {t : Token}
  {ts rest : List Token} {anchors : List (String × Nat)}

theorem run_peek (s : NodeReader) : peek.run s = some (s.tokens.head?, s) := rfl

theorem run_advance : advance.run ⟨t :: ts, anchors⟩ = some ((), ⟨ts, anchors⟩) := rfl

theorem run_accept_self : (accept t).run ⟨t :: ts, anchors⟩ = some (true, ⟨ts, anchors⟩) := by
  simp [accept, run_peek, run_advance]

theorem run_accept_of_ne (h : ts.head? ≠ some t) :
    (accept t).run ⟨ts, anchors⟩ = some (false, ⟨ts, anchors⟩) := by
  simp [accept, run_peek, h]

theorem run_isAt (expected : List Token) (s : NodeReader) :
    (isAt expected).run s = some (s.tokens.head?.any (· ∈ expected), s) := rfl

theorem run_bind_eq {α β : Type} {m : Read α} {f : α → Read β} {s s' : NodeReader} {a : α}
    (h : m.run s = some (a, s')) : (m >>= f).run s = (f a).run s' := by
  simp [h]

/-! ### Nodes by their first token -/

theorem run_node_scalar (style : ScalarStyle) (text : String) :
    (node handles (fuel + 1) inBlock indentless).run ⟨.scalar style text :: ts, anchors⟩ =
      some (.scalar none style text, ⟨ts, anchors⟩) := by
  rw [node]
  rfl

section Collections

variable {items : List Node} {entries : List (Node × Node)} {s : NodeReader}

theorem run_node_flowSequence
    (h : (flowItems handles fuel true).run ⟨ts, anchors⟩ = some (items, s)) :
    (node handles (fuel + 1) inBlock indentless).run ⟨.flowSequence :: ts, anchors⟩ =
      some (.sequence none items, s) := by
  rw [node]
  show Option.bind ((flowItems handles fuel true).run ⟨ts, anchors⟩)
    (fun (content, s) => some (Node.sequence none content, s)) = _
  rw [h]
  rfl

theorem run_node_flowMapping
    (h : (flowEntries handles fuel true).run ⟨ts, anchors⟩ = some (entries, s)) :
    (node handles (fuel + 1) inBlock indentless).run ⟨.flowMapping :: ts, anchors⟩ =
      some (.mapping none entries, s) := by
  rw [node]
  show Option.bind ((flowEntries handles fuel true).run ⟨ts, anchors⟩)
    (fun (content, s) => some (Node.mapping none content, s)) = _
  rw [h]
  rfl

theorem run_node_blockSequence
    (h : (blockItems handles fuel).run ⟨ts, anchors⟩ = some (items, s)) :
    (node handles (fuel + 1) true indentless).run ⟨.blockSequence :: ts, anchors⟩ =
      some (.sequence none items, s) := by
  rw [node]
  show Option.bind ((blockItems handles fuel).run ⟨ts, anchors⟩)
    (fun (content, s) => some (Node.sequence none content, s)) = _
  rw [h]
  rfl

theorem run_node_blockEntry
    (h : (indentlessItems handles fuel).run ⟨.blockEntry :: ts, anchors⟩ = some (items, s)) :
    (node handles (fuel + 1) true true).run ⟨.blockEntry :: ts, anchors⟩ =
      some (.sequence none items, s) := by
  rw [node]
  show Option.bind ((indentlessItems handles fuel).run ⟨.blockEntry :: ts, anchors⟩)
    (fun (content, s) => some (Node.sequence none content, s)) = _
  rw [h]
  rfl

theorem run_node_blockMapping
    (h : (blockEntries handles fuel).run ⟨ts, anchors⟩ = some (entries, s)) :
    (node handles (fuel + 1) true indentless).run ⟨.blockMapping :: ts, anchors⟩ =
      some (.mapping none entries, s) := by
  rw [node]
  show Option.bind ((blockEntries handles fuel).run ⟨ts, anchors⟩)
    (fun (content, s) => some (Node.mapping none content, s)) = _
  rw [h]
  rfl

end Collections

theorem run_blockNode {ends : List Token} (h : t ∉ ends) :
    (blockNode handles (fuel + 1) indentless ends).run ⟨t :: ts, anchors⟩ =
      (node handles fuel true indentless).run ⟨t :: ts, anchors⟩ := by
  rw [blockNode]
  simp [run_isAt, h]

/-! ### Entries one at a time -/

section Entries

variable {item key value : Node} {items : List Node} {entries : List (Node × Node)}
  {s s' : NodeReader}

theorem run_blockItems_nil :
    (blockItems handles (fuel + 1)).run ⟨.blockEnd :: ts, anchors⟩ = some ([], ⟨ts, anchors⟩) := by
  rw [blockItems, run_bind_eq run_accept_self]
  rfl

theorem run_blockItems_cons (ht : t ∉ [Token.blockEntry, .blockEnd])
    (hnode : (node handles fuel true false).run ⟨t :: ts, anchors⟩ = some (item, s))
    (hrest : (blockItems handles (fuel + 1)).run s = some (items, s')) :
    (blockItems handles (fuel + 2)).run ⟨.blockEntry :: t :: ts, anchors⟩ =
      some (item :: items, s') := by
  have expected : (expect .blockEntry).run ⟨.blockEntry :: t :: ts, anchors⟩ =
      some ((), ⟨t :: ts, anchors⟩) := by
    rw [expect, run_bind_eq run_accept_self]
    rfl
  have first := (run_blockNode ht).trans hnode
  rw [blockItems, run_bind_eq (run_accept_of_ne (by simp))]
  show (StateT.run (expect .blockEntry >>= _) _) = _
  rw [run_bind_eq expected, run_bind_eq first, run_bind_eq hrest]
  rfl

theorem run_indentlessItems_nil (h : ts.head? ≠ some .blockEntry) :
    (indentlessItems handles (fuel + 1)).run ⟨ts, anchors⟩ = some ([], ⟨ts, anchors⟩) := by
  rw [indentlessItems, run_bind_eq (run_accept_of_ne h)]
  rfl

theorem run_indentlessItems_cons (ht : t ∉ [Token.blockEntry, .key, .value, .blockEnd])
    (hnode : (node handles fuel true false).run ⟨t :: ts, anchors⟩ = some (item, s))
    (hrest : (indentlessItems handles (fuel + 1)).run s = some (items, s')) :
    (indentlessItems handles (fuel + 2)).run ⟨.blockEntry :: t :: ts, anchors⟩ =
      some (item :: items, s') := by
  have first := (run_blockNode ht).trans hnode
  rw [indentlessItems, run_bind_eq run_accept_self]
  show (StateT.run (blockNode handles (fuel + 1) false _ >>= _) _) = _
  rw [run_bind_eq first, run_bind_eq hrest]
  rfl

theorem run_blockEntries_nil :
    (blockEntries handles (fuel + 1)).run ⟨.blockEnd :: ts, anchors⟩ =
      some ([], ⟨ts, anchors⟩) := by
  rw [blockEntries, run_bind_eq run_accept_self]
  rfl

theorem run_blockEntries_cons {t' : Token} {ts' : List Token}
    (ht : t ∉ [Token.key, .value, .blockEnd]) (ht' : t' ∉ [Token.key, .value, .blockEnd])
    (hkey : (node handles fuel true true).run ⟨t :: ts, anchors⟩ =
      some (key, ⟨.value :: t' :: ts', anchors⟩))
    (hvalue : (node handles fuel true true).run ⟨t' :: ts', anchors⟩ = some (value, s))
    (hrest : (blockEntries handles (fuel + 1)).run s = some (entries, s')) :
    (blockEntries handles (fuel + 2)).run ⟨.key :: t :: ts, anchors⟩ =
      some ((key, value) :: entries, s') := by
  have expected : (expect .key).run ⟨.key :: t :: ts, anchors⟩ = some ((), ⟨t :: ts, anchors⟩) := by
    rw [expect, run_bind_eq run_accept_self]
    rfl
  have first := (run_blockNode ht).trans hkey
  have second := (run_blockNode ht').trans hvalue
  rw [blockEntries, run_bind_eq (run_accept_of_ne (by simp))]
  show (StateT.run (expect .key >>= _) _) = _
  rw [run_bind_eq expected, run_bind_eq first, run_bind_eq run_accept_self]
  show (StateT.run (blockNode handles (fuel + 1) true _ >>= _) _) = _
  rw [run_bind_eq second, run_bind_eq hrest]
  rfl

theorem run_flowItems_nil :
    (flowItems handles (fuel + 1) true).run ⟨.flowSequenceEnd :: ts, anchors⟩ =
      some ([], ⟨ts, anchors⟩) := by
  rw [flowItems, run_bind_eq run_accept_self]
  rfl

theorem run_flowEntries_nil :
    (flowEntries handles (fuel + 1) true).run ⟨.flowMappingEnd :: ts, anchors⟩ =
      some ([], ⟨ts, anchors⟩) := by
  rw [flowEntries, run_bind_eq run_accept_self]
  rfl

end Entries

/-! ### The tokens of a value -/

theorem exists_tokens (bare : Bool) (v : Value) :
    ∃ t ts, tokens bare v = t :: ts ∧ t ∉ [Token.key, .value, .blockEnd] ∧
      (bare = false → t ≠ .blockEntry) := by
  match v with
  | .null | .bool _ | .int _ | .float _ | .str _ =>
    exact ⟨_, [], rfl, by simp [textToken], by simp [textToken]⟩
  | .list [] => exact ⟨_, _, rfl, by simp, by simp⟩
  | .map [] => exact ⟨_, _, rfl, by simp, by simp⟩
  | .map (m :: ms) => exact ⟨.blockMapping, _, rfl, by simp, by simp⟩
  | .list (x :: xs) =>
    cases bare with
    | false => exact ⟨.blockSequence, _, rfl, by simp, by simp⟩
    | true => exact ⟨.blockEntry, _, rfl, by simp, by simp⟩

/-- The tokens of a value are read as its node, and nothing after them. Without tokens for its start
and its end a list is read where one may stand under its key, and ends before no further item. -/
def Reads (v : Value) : Prop :=
  ∀ (bare indentless : Bool) (fuel : Nat) (rest : List Token),
    3 * (tokens bare v).length ≤ fuel →
    (bare = true → indentless = true ∧ rest.head? ≠ some .blockEntry) →
    ∀ handles anchors, (node handles fuel true indentless).run ⟨tokens bare v ++ rest, anchors⟩ =
      some (Node.ofValue v, ⟨rest, anchors⟩)

/-- The tokens of the items of a list are read as their nodes. -/
def ReadsItems (xs : List Value) : Prop :=
  ∀ (fuel : Nat) (rest : List Token), 3 * (itemTokens xs).length ≤ fuel + 1 → 0 < fuel →
    ∀ handles anchors,
      (blockItems handles fuel).run ⟨itemTokens xs ++ .blockEnd :: rest, anchors⟩ =
        some (Node.ofItems xs, ⟨rest, anchors⟩) ∧
      (rest.head? ≠ some .blockEntry →
        (indentlessItems handles fuel).run ⟨itemTokens xs ++ rest, anchors⟩ =
          some (Node.ofItems xs, ⟨rest, anchors⟩))

/-- The tokens of the members of a map are read as the nodes of their keys and values. -/
def ReadsMembers (ms : List (String × Value)) : Prop :=
  ∀ (fuel : Nat) (rest : List Token), 3 * (memberTokens ms).length ≤ fuel + 1 → 0 < fuel →
    ∀ handles anchors,
      (blockEntries handles fuel).run ⟨memberTokens ms ++ .blockEnd :: rest, anchors⟩ =
        some (Node.ofMembers ms, ⟨rest, anchors⟩)

theorem reads_scalar {v : Value} {style : ScalarStyle} {text : String}
    (spelled : ∀ bare, tokens bare v = [.scalar style text])
    (node : Node.ofValue v = .scalar none style text) : Reads v := by
  intro bare indentless fuel rest enough _ handles anchors
  rw [spelled, List.length_singleton] at enough
  obtain ⟨fuel, rfl⟩ : ∃ n, fuel = n + 1 := ⟨fuel - 1, by omega⟩
  rw [spelled, node]
  exact run_node_scalar style text

theorem reads_empty_list : Reads (.list []) := by
  intro bare indentless fuel rest enough _ handles anchors
  simp only [tokens, List.length_cons, List.length_nil] at enough
  obtain ⟨fuel, rfl⟩ : ∃ n, fuel = n + 2 := ⟨fuel - 2, by omega⟩
  simpa [tokens, Node.ofValue, Node.ofItems] using run_node_flowSequence run_flowItems_nil

theorem reads_empty_map : Reads (.map []) := by
  intro bare indentless fuel rest enough _ handles anchors
  simp only [tokens, List.length_cons, List.length_nil] at enough
  obtain ⟨fuel, rfl⟩ : ∃ n, fuel = n + 2 := ⟨fuel - 2, by omega⟩
  simpa [tokens, Node.ofValue, Node.ofMembers] using run_node_flowMapping run_flowEntries_nil

theorem reads_list {x : Value} {xs : List Value} (h : ReadsItems (x :: xs)) :
    Reads (.list (x :: xs)) := by
  intro bare indentless fuel rest enough under handles anchors
  cases bare with
  | false =>
    simp only [tokens, List.length_append, List.length_cons, List.length_nil, Bool.false_eq_true,
      if_false] at enough
    obtain ⟨fuel, rfl⟩ : ∃ n, fuel = n + 1 := ⟨fuel - 1, by omega⟩
    have items := (h fuel rest (by omega) (by omega) handles anchors).1
    simpa [tokens, Node.ofValue] using run_node_blockSequence items
  | true =>
    obtain ⟨rfl, ends⟩ := under rfl
    simp only [tokens, if_true, itemTokens, List.length_append, List.length_cons] at enough
    obtain ⟨t, ts, first, -⟩ := exists_tokens false x
    rw [first, List.length_cons] at enough
    obtain ⟨fuel, rfl⟩ : ∃ n, fuel = n + 1 := ⟨fuel - 1, by omega⟩
    have items := (h fuel rest
      (by simp only [itemTokens, first, List.length_append, List.length_cons]; omega) (by omega)
      handles anchors).2 ends
    simp only [itemTokens, List.cons_append] at items
    simpa [tokens, itemTokens, Node.ofValue] using run_node_blockEntry items

theorem reads_map {m : String × Value} {ms : List (String × Value)} (h : ReadsMembers (m :: ms)) :
    Reads (.map (m :: ms)) := by
  intro bare indentless fuel rest enough _ handles anchors
  simp only [tokens, List.length_append, List.length_cons, List.length_nil] at enough
  obtain ⟨fuel, rfl⟩ : ∃ n, fuel = n + 1 := ⟨fuel - 1, by omega⟩
  have members := h fuel rest (by omega) (by omega) handles anchors
  simpa [tokens, Node.ofValue] using run_node_blockMapping members

theorem readsItems_nil : ReadsItems [] := by
  intro fuel rest _ positive handles anchors
  obtain ⟨fuel, rfl⟩ : ∃ n, fuel = n + 1 := ⟨fuel - 1, by omega⟩
  exact ⟨run_blockItems_nil, run_indentlessItems_nil⟩

theorem readsItems_cons {x : Value} {xs : List Value} (first : Reads x) (others : ReadsItems xs) :
    ReadsItems (x :: xs) := by
  intro fuel rest enough _ handles anchors
  obtain ⟨t, ts, spelled, inBlock, noEntry⟩ := exists_tokens false x
  have noEntry := noEntry rfl
  simp only [List.mem_cons, List.not_mem_nil, or_false, not_or] at inBlock
  simp only [itemTokens, List.length_append, List.length_cons] at enough
  have positive : 0 < (tokens false x).length := by simp [spelled]
  obtain ⟨fuel, rfl⟩ : ∃ n, fuel = n + 2 := ⟨fuel - 2, by omega⟩
  have head : ∀ after, (node handles fuel true false).run ⟨t :: (ts ++ after), anchors⟩ =
      some (Node.ofValue x, ⟨after, anchors⟩) := by
    intro after
    rw [← List.cons_append, ← spelled]
    exact first false false fuel after (by omega) (by simp) handles anchors
  have tail := others (fuel + 1) rest (by omega) (by omega) handles anchors
  simp only [itemTokens, Node.ofItems, spelled, List.cons_append, List.append_assoc]
  exact ⟨run_blockItems_cons (by simp [inBlock, noEntry]) (head _) tail.1,
    fun ends => run_indentlessItems_cons (by simp [inBlock, noEntry]) (head _) (tail.2 ends)⟩

theorem readsMembers_nil : ReadsMembers [] := by
  intro fuel rest _ positive handles anchors
  obtain ⟨fuel, rfl⟩ : ∃ n, fuel = n + 1 := ⟨fuel - 1, by omega⟩
  exact run_blockEntries_nil

theorem head?_memberTokens (ms : List (String × Value)) (rest : List Token) :
    (memberTokens ms ++ .blockEnd :: rest).head? ≠ some .blockEntry := by
  cases ms with
  | nil => simp [memberTokens]
  | cons m ms =>
    obtain ⟨key, v⟩ := m
    simp [memberTokens]

theorem readsMembers_cons {key : String} {v : Value} {ms : List (String × Value)}
    (value : Reads v) (others : ReadsMembers ms) : ReadsMembers ((key, v) :: ms) := by
  intro fuel rest enough _ handles anchors
  obtain ⟨t, ts, spelled, inBlock, -⟩ := exists_tokens (isSimpleKey key) v
  simp only [memberTokens, List.length_append, List.length_cons] at enough
  obtain ⟨fuel, rfl⟩ : ∃ n, fuel = n + 2 := ⟨fuel - 2, by omega⟩
  have head : (node handles fuel true true).run
      ⟨t :: (ts ++ (memberTokens ms ++ .blockEnd :: rest)), anchors⟩ =
      some (Node.ofValue v, ⟨memberTokens ms ++ .blockEnd :: rest, anchors⟩) := by
    rw [← List.cons_append, ← spelled]
    exact value _ true fuel _ (by omega) (fun _ => ⟨rfl, head?_memberTokens ms rest⟩) handles
      anchors
  have tail := others (fuel + 1) rest (by omega) (by omega) handles anchors
  obtain ⟨fuel, rfl⟩ : ∃ n, fuel = n + 1 := ⟨fuel - 1, by omega⟩
  simp only [memberTokens, Node.ofMembers, spelled, List.cons_append, List.append_assoc]
  exact run_blockEntries_cons (by simp [textToken]) inBlock (run_node_scalar _ _) head tail

mutual

/-- The tokens of a value are read as its node, by induction on the value. -/
theorem reads_tokens (v : Value) : Reads v := by
  match v with
  | .null | .bool _ | .int _ | .float _ | .str _ => exact reads_scalar (fun _ => rfl) rfl
  | .list [] => exact reads_empty_list
  | .list (x :: xs) => exact reads_list (readsItems_tokens (x :: xs))
  | .map [] => exact reads_empty_map
  | .map (m :: ms) => exact reads_map (readsMembers_tokens (m :: ms))

theorem readsItems_tokens (xs : List Value) : ReadsItems xs := by
  match xs with
  | [] => exact readsItems_nil
  | x :: xs => exact readsItems_cons (reads_tokens x) (readsItems_tokens xs)

theorem readsMembers_tokens (ms : List (String × Value)) : ReadsMembers ms := by
  match ms with
  | [] => exact readsMembers_nil
  | (key, v) :: ms => exact readsMembers_cons (reads_tokens v) (readsMembers_tokens ms)

end

end Read

/-! ## Whole texts -/

namespace Document

theorem readContent_tokens (handles : TagHandles) (v : Value) (rest : List Token) :
    readContent handles (tokens false v ++ rest) = some (Node.ofValue v, rest) := by
  have read := Read.reads_tokens v false false (3 * (tokens false v ++ rest).length + 8) rest
    (by simp; omega) (by simp) handles []
  show Option.bind (StateT.run _ _) _ = _
  rw [read]
  rfl

theorem not_isExplicitStart_tokens (v : Value) :
    ∃ t ts, tokens false v = t :: ts ∧ isExplicitStart t = false ∧ t ≠ .documentEnd := by
  match v with
  | .null | .bool _ | .int _ | .float _ | .str _ => exact ⟨_, _, rfl, rfl, by simp [textToken]⟩
  | .list [] | .list (_ :: _) | .map [] | .map (_ :: _) => exact ⟨_, _, rfl, rfl, by simp⟩

/-- A value that is written reads back as its node. -/
theorem read?_write (v : Value) : read? (write v) = some ⟨some (Node.ofValue v)⟩ := by
  obtain ⟨t, ts, spelled, implicit, -⟩ := not_isExplicitStart_tokens v
  have content := readContent_tokens TagHandles.standard v []
  rw [List.append_nil, spelled] at content
  simp [read?, readStream?, tokens?_write, spelled, streamOfTokens?, implicit, content, readLater,
    ofStream?]

theorem readMarked_tokens (v : Value) (rest : List Token) :
    readMarked (.documentStart :: tokens false v ++ rest) = some (Node.ofValue v, rest) := by
  obtain ⟨t, ts, spelled, implicit, open_⟩ := not_isExplicitStart_tokens v
  have content := readContent_tokens TagHandles.standard v rest
  rw [spelled, List.cons_append] at content
  simp [readMarked, Read.directives, readExplicit, spelled, implicit, open_, content]

theorem readLater_streamTokens (vs : List Value) {fuel : Nat}
    (enough : (Place.streamTokens vs).length ≤ fuel) :
    readLater fuel (Place.streamTokens vs) = some (vs.map Node.ofValue) := by
  induction vs generalizing fuel with
  | nil => cases fuel <;> rfl
  | cons v vs ih =>
    have unfolded : Place.streamTokens (v :: vs) =
        .documentStart :: tokens false v ++ Place.streamTokens vs := rfl
    simp only [unfolded, List.cons_append, List.length_cons, List.length_append] at enough
    obtain ⟨fuel, rfl⟩ : ∃ n, fuel = n + 1 := ⟨fuel - 1, by omega⟩
    have first := readMarked_tokens v (Place.streamTokens vs)
    have others := ih (show (Place.streamTokens vs).length ≤ fuel by omega)
    rw [List.cons_append] at first
    simp [unfolded, readLater, first, others]

/-- The documents of a stream that is written read back as the nodes of its values, in order. -/
theorem readStream?_writeStream (vs : List Value) :
    readStream? (writeStream vs) = some (vs.map Node.ofValue) := by
  rw [readStream?, tokens?_writeStream]
  cases vs with
  | nil => rfl
  | cons v vs =>
    have unfolded : Place.streamTokens (v :: vs) =
        .documentStart :: tokens false v ++ Place.streamTokens vs := rfl
    have first := readMarked_tokens v (Place.streamTokens vs)
    have others := readLater_streamTokens vs (Nat.le_refl _)
    rw [List.cons_append] at first
    simp [unfolded, streamOfTokens?, isExplicitStart, first, others]

end Document

end LogForwarder.Yaml
