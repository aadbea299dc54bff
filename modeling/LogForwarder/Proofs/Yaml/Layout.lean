import LogForwarder.Proofs.Yaml.Written

/-!
# Documents as tokens

The text of a value is read as the tokens that spell it.

1. `tokens` are the tokens of a value. The items of a list under a simple key stand without the
   tokens of a collection of their own.
2. `Place.readsValue` reads a value where the writer puts it, by induction on the value, together
   with `Place.readsItems` and `Place.readsMembers`.
3. `tokens?_write` and `tokens?_writeStream` read whole texts.
-/

namespace LogForwarder.Yaml

/-! ## The tokens of a value -/

/-- The text of a scalar that is no text. -/
def spelling : Value → String
  | .null => "null"
  | .bool flag => if flag then "true" else "false"
  | .int n => Numeral.decimal n
  | .float x => floatStyle.text x
  | .str _ | .list _ | .map _ => ""

mutual

/-- The tokens that spell a value; `bare` says that a list has none for its start and its end. -/
def tokens (bare : Bool) : Value → List Token
  | .str s => [textToken s]
  | .list [] => [.flowSequence, .flowSequenceEnd]
  | .list (x :: xs) =>
    if bare then itemTokens (x :: xs) else .blockSequence :: itemTokens (x :: xs) ++ [.blockEnd]
  | .map [] => [.flowMapping, .flowMappingEnd]
  | .map (m :: ms) => .blockMapping :: memberTokens (m :: ms) ++ [.blockEnd]
  | v => [.scalar .plain (spelling v)]

/-- The tokens of the items of a list. -/
def itemTokens : List Value → List Token
  | [] => []
  | v :: vs => .blockEntry :: tokens false v ++ itemTokens vs

/-- The tokens of the members of a map. -/
def memberTokens : List (String × Value) → List Token
  | [] => []
  | (key, v) :: ms =>
    .key :: textToken key :: .value :: tokens (isSimpleKey key) v ++ memberTokens ms

end

/-! ## The layout of entries -/

section Layout

variable {column : Nat}

/-- The text of the items of a list at a column. -/
def itemsText (column : Nat) (xs : List Value) : List Char :=
  (pad column).intercalate (itemBlocks column xs)

/-- The text of the members of a map at a column. -/
def membersText (column : Nat) (ms : List (String × Value)) : List Char :=
  (pad column).intercalate (memberBlocks column ms)

/-- What stands after the colon of a simple key. -/
def valueText (column : Nat) (v : Value) : List Char :=
  match v with
  | .map (_ :: _) => '\n' :: pad (column + 2) ++ block (column + 2) v
  | .list (_ :: _) => '\n' :: pad column ++ block column v
  | _ => ' ' :: block (column + 2) v

/-- What stands after the question mark of a key that is not simple. -/
def explicitText (column : Nat) (key : String) (v : Value) : List Char :=
  textLine (column + 2) key ++ (pad column ++ ':' :: ' ' :: block (column + 2) v)

theorem block_str (s : String) : block column (.str s) = textLine column s := rfl

theorem block_list (x : Value) (xs : List Value) :
    block column (.list (x :: xs)) = itemsText column (x :: xs) := rfl

theorem block_map (m : String × Value) (ms : List (String × Value)) :
    block column (.map (m :: ms)) = membersText column (m :: ms) := rfl

theorem itemsText_cons (x : Value) (xs : List Value) : itemsText column (x :: xs) =
    '-' :: ' ' :: block (column + 2) x ++
      (if xs = [] then [] else pad column ++ itemsText column xs) := by
  cases xs <;> simp [itemsText, itemBlocks]

theorem memberBlocks_cons (key : String) (v : Value) (ms : List (String × Value)) :
    memberBlocks column ((key, v) :: ms) =
      (if isSimpleKey key then textChars column key ++ ':' :: valueText column v
        else '?' :: ' ' :: explicitText column key v) :: memberBlocks column ms := by
  match v with
  | .null | .bool _ | .int _ | .float _ | .str _ | .list [] | .list (_ :: _) | .map []
  | .map (_ :: _) => simp [memberBlocks, valueText, explicitText]

theorem membersText_cons (key : String) (v : Value) (ms : List (String × Value)) :
    membersText column ((key, v) :: ms) =
      (if isSimpleKey key then textChars column key ++ ':' :: valueText column v
        else '?' :: ' ' :: explicitText column key v) ++
      (if ms = [] then [] else pad column ++ membersText column ms) := by
  rw [membersText, memberBlocks_cons, membersText]
  cases ms with
  | nil => simp [memberBlocks]
  | cons m ms =>
    obtain ⟨other, w⟩ := m
    simp [memberBlocks_cons]

theorem startsToken_itemsText {xs : List Value} (nonempty : xs ≠ []) (tail : List Char) :
    StartsToken (itemsText column xs ++ tail) := by
  obtain ⟨x, xs, rfl⟩ := List.exists_cons_of_ne_nil nonempty
  rw [itemsText_cons]
  exact ⟨'-', _, rfl, by decide, by decide⟩

theorem startsToken_membersText {ms : List (String × Value)} (nonempty : ms ≠ [])
    (tail : List Char) : StartsToken (membersText column ms ++ tail) := by
  obtain ⟨⟨key, v⟩, ms, rfl⟩ := List.exists_cons_of_ne_nil nonempty
  rw [membersText_cons]
  by_cases simple : isSimpleKey key = true
  · rw [if_pos simple, List.append_assoc, List.append_assoc, List.cons_append]
    exact startsToken_textChars key column _
  · rw [if_neg simple]
    exact ⟨'?', _, rfl, by decide, by decide⟩

end Layout

/-! ## Scalars that are no texts -/

/-- Whether a value is a scalar but no text. -/
def IsSpelled : Value → Prop
  | .null | .bool _ | .int _ | .float _ => True
  | .str _ | .list _ | .map _ => False

theorem unquoted_spelling {v : Value} (h : IsSpelled v) : Unquoted (spelling v).toList := by
  match v with
  | .null => exact .of_plainAllowed (by decide) (by decide)
  | .bool true => exact .of_plainAllowed (by decide) (by decide)
  | .bool false => exact .of_plainAllowed (by decide) (by decide)
  | .int n => exact unquoted_decimal n
  | .float x => exact unquoted_float x

theorem block_spelling {v : Value} (h : IsSpelled v) (indent : Nat) :
    block indent v = (spelling v).toList ++ ['\n'] := by
  match v with
  | .null | .bool true | .bool false | .int _ | .float _ => rfl

theorem tokens_spelling {v : Value} (h : IsSpelled v) (bare : Bool) :
    tokens bare v = [.scalar .plain (spelling v)] := by
  match v with
  | .null | .bool _ | .int _ | .float _ => rfl

/-- Whatever is written of a value begins a token. -/
theorem startsToken_block (v : Value) (indent : Nat) (tail : List Char) :
    StartsToken (block indent v ++ tail) := by
  by_cases spelled : IsSpelled v
  · rw [block_spelling spelled, List.append_assoc]
    exact (unquoted_spelling spelled).startsToken _
  match v with
  | .null | .bool _ | .int _ | .float _ => exact absurd trivial spelled
  | .str s =>
    rw [block_str, textLine, List.append_assoc]
    exact startsToken_textChars s indent _
  | .list [] => exact ⟨'[', _, rfl, by decide, by decide⟩
  | .map [] => exact ⟨'\x7b', _, rfl, by decide, by decide⟩
  | .list (x :: xs) => exact startsToken_itemsText (by simp) tail
  | .map (m :: ms) => exact startsToken_membersText (by simp) tail

namespace Place

/-! ## Values where the writer puts them -/

/-- Whether a value is written so that it is read at a place: the further lines of a text are
indented by the open collections, and a collection begins at the column of its entries. -/
def Fits (indents : List Nat) (column indent : Nat) (keyAllowed : Bool) : Value → Prop
  | .str _ => indent = innerIndent indents
  | .list (_ :: _) | .map (_ :: _) => indent = column ∧ keyAllowed = true
  | _ => True

/-- A value is read as its tokens, to where something else begins. -/
def ReadsBlock (v : Value) : Prop :=
  ∀ {indents : List Nat} {count column indent : Nat} {rest : List Char} {keyAllowed : Bool}
    (emitted : List Token), Next indents count rest → (∀ i ∈ indents.head?, i < column) →
    Fits indents column indent keyAllowed v →
    Leads ⟨block indent v ++ (pad count ++ rest), column, indents, keyAllowed, emitted⟩
      ⟨rest, count, indents, true, (tokens false v).reverse ++ emitted⟩

/-- The items of a list are read in a sequence that is opened for them, if none is open at their
column. -/
def ReadsItems (xs : List Value) : Prop :=
  ∀ {indents : List Nat} {count column : Nat} {rest : List Char} (emitted : List Token),
    Inside indents column → Next (opened indents column) count rest →
    Leads ⟨itemsText column xs ++ (pad count ++ rest), column, indents, true, emitted⟩
      ⟨rest, count, opened indents column, true,
        (itemTokens xs).reverse ++ opening indents column .blockSequence emitted⟩

/-- The members of a map are read in a mapping that is opened for them, if none is open at their
column. -/
def ReadsMembers (ms : List (String × Value)) : Prop :=
  ∀ {indents : List Nat} {count column : Nat} {rest : List Char} (emitted : List Token),
    Inside indents column → Next (opened indents column) count rest →
    Leads ⟨membersText column ms ++ (pad count ++ rest), column, indents, true, emitted⟩
      ⟨rest, count, opened indents column, true,
        (memberTokens ms).reverse ++ opening indents column .blockMapping emitted⟩

section Opened

variable {indents : List Nat} {column : Nat}

@[simp] theorem opened_opened : opened (opened indents column) column = opened indents column :=
  if_pos head?_opened

@[simp] theorem opening_opened (first : Token) (emitted : List Token) :
    opening (opened indents column) column first emitted = emitted :=
  if_pos head?_opened

@[simp] theorem innerIndent_opened : innerIndent (opened indents column) = column + 2 := by
  rw [innerIndent, head?_opened]
  rfl

theorem inside_of_lt (inside : ∀ i ∈ indents.head?, i < column) : Inside indents column :=
  fun i mem => Nat.le_of_lt (inside i mem)

/-- No collection is open at a column that is to the right of all. -/
theorem head?_ne_of_lt (inside : ∀ i ∈ indents.head?, i < column) :
    indents.head? ≠ some column :=
  fun same => absurd (inside column same) (Nat.lt_irrefl column)

theorem opened_of_lt (inside : ∀ i ∈ indents.head?, i < column) (first : Token)
    (emitted : List Token) : opened indents column = column :: indents ∧
      opening indents column first emitted = first :: emitted :=
  ⟨if_neg (head?_ne_of_lt inside), if_neg (head?_ne_of_lt inside)⟩

theorem lt_of_opened {wider : Nat} (h : column < wider) :
    ∀ i ∈ (opened indents column).head?, i < wider := by
  intro i mem
  rw [head?_opened, Option.mem_some_iff] at mem
  omega

theorem next_opened {rest : List Char} (start : StartsToken rest) :
    Next (opened indents column) column rest :=
  .outside head?_opened (Nat.le_refl column) start

/-- Every value fits after the mark of an entry. -/
theorem fits_opened (v : Value) : Fits (opened indents column) (column + 2) (column + 2) true v := by
  unfold Fits
  split <;> simp

end Opened

/-! ### One case for each kind of value -/

variable {v : Value} {xs : List Value} {ms : List (String × Value)}

theorem readsBlock_spelled (h : IsSpelled v) : ReadsBlock v := by
  intro indents count column indent rest keyAllowed emitted next inside _
  have free : keyAllowed = true → indents.head? ≠ some column := fun _ => head?_ne_of_lt inside
  have leads := leads_plain emitted (unquoted_spelling h) next (inside_of_lt inside) free
  rw [String.ofList_toList] at leads
  rw [block_spelling h, tokens_spelling h]
  simpa using leads

theorem readsBlock_str (s : String) : ReadsBlock (.str s) := by
  intro indents count column indent rest keyAllowed emitted next inside fits
  rw [block_str, show indent = innerIndent indents from fits]
  exact leads_text emitted s next (inside_of_lt inside) (fun _ => head?_ne_of_lt inside)

theorem readsBlock_empty (h : v = .list [] ∨ v = .map []) : ReadsBlock v := by
  intro indents count column indent rest keyAllowed emitted next inside _
  have free : keyAllowed = true → indents.head? ≠ some column := fun _ => head?_ne_of_lt inside
  rcases h with rfl | rfl
  · exact leads_brackets emitted (by decide) (by decide) (fun _ _ => rfl) (fun _ _ => rfl) next
      (inside_of_lt inside) free
  · exact leads_brackets emitted (by decide) (by decide) (fun _ _ => rfl) (fun _ _ => rfl) next
      (inside_of_lt inside) free

theorem readsBlock_list (nonempty : xs ≠ []) (h : ReadsItems xs) : ReadsBlock (.list xs) := by
  obtain ⟨x, xs, rfl⟩ := List.exists_cons_of_ne_nil nonempty
  intro indents count column indent rest keyAllowed emitted next inside fits
  obtain ⟨rfl, rfl⟩ := fits
  obtain ⟨opened, opening⟩ := opened_of_lt inside .blockSequence emitted
  have items := h emitted (inside_of_lt inside) (opened ▸ next.push inside)
  rw [opened, opening] at items
  have close := leads_close [indent] ((itemTokens (x :: xs)).reverse ++ .blockSequence :: emitted)
    next (by simpa using inside)
  simpa [block_list, tokens, closing] using items.trans close

theorem readsBlock_map (nonempty : ms ≠ []) (h : ReadsMembers ms) : ReadsBlock (.map ms) := by
  obtain ⟨m, ms, rfl⟩ := List.exists_cons_of_ne_nil nonempty
  intro indents count column indent rest keyAllowed emitted next inside fits
  obtain ⟨rfl, rfl⟩ := fits
  obtain ⟨opened, opening⟩ := opened_of_lt inside .blockMapping emitted
  have members := h emitted (inside_of_lt inside) (opened ▸ next.push inside)
  rw [opened, opening] at members
  have close := leads_close [indent] ((memberTokens (m :: ms)).reverse ++ .blockMapping :: emitted)
    next (by simpa using inside)
  simpa [block_map, tokens, closing] using members.trans close

/-! ### Entries -/

/-- What stands after one of the items. -/
theorem readsItems_cons {x : Value} (hx : ReadsBlock x) (hxs : xs ≠ [] → ReadsItems xs) :
    ReadsItems (x :: xs) := by
  intro indents count column rest emitted inside next
  have mark : ∀ tail, Leads
      ⟨'-' :: ' ' :: (block (column + 2) x ++ tail), column, indents, true, emitted⟩
      ⟨block (column + 2) x ++ tail, column + 2, opened indents column, true,
        .blockEntry :: opening indents column .blockSequence emitted⟩ :=
    fun tail => leads_blockEntry emitted (startsToken_block x (column + 2) tail) inside
  have fits : Fits (opened indents column) (column + 2) (column + 2) true x := fits_opened x
  rw [itemsText_cons]
  by_cases last : xs = []
  · subst last
    have item := hx (.blockEntry :: opening indents column .blockSequence emitted) next
      (lt_of_opened (by omega)) fits
    simpa [itemTokens] using (mark _).trans item
  · have start : StartsToken (itemsText column xs ++ (pad count ++ rest)) :=
      startsToken_itemsText last _
    have item := hx (.blockEntry :: opening indents column .blockSequence emitted)
      (next_opened start) (lt_of_opened (by omega)) fits
    have more := hxs last ((tokens false x).reverse ++
      .blockEntry :: opening indents column .blockSequence emitted) inside_opened
      (opened_opened ▸ next)
    rw [opened_opened, opening_opened] at more
    simpa [last, itemTokens] using (mark _).trans (item.trans more)

/-- A value is read, and if it is a list its items are also read without a sequence for them. -/
def ReadsValue (v : Value) : Prop :=
  ReadsBlock v ∧ ∀ x xs, v = .list (x :: xs) → ReadsItems (x :: xs)

section Member

variable {key : String} {indents : List Nat} {count column : Nat} {rest : List Char}
  (emitted : List Token)

/-- The value after the colon of a simple key is read, a list without tokens for its start and its
end. -/
theorem leads_valueText (hv : ReadsValue v)
    {wider : Nat} (right : column < wider) (next : Next (opened indents column) count rest) :
    Leads ⟨valueText column v ++ (pad count ++ rest), wider, opened indents column, false, emitted⟩
      ⟨rest, count, opened indents column, true, (tokens true v).reverse ++ emitted⟩ := by
  have start (indent : Nat) := startsToken_block v indent (pad count ++ rest)
  have below (width indent : Nat) :
      Leads ⟨'\n' :: (pad width ++ (block indent v ++ (pad count ++ rest))), wider,
          opened indents column, false, emitted⟩
        ⟨block indent v ++ (pad count ++ rest), width, opened indents column, true, emitted⟩ :=
    leads_line emitted (start indent) width
  have beside (fits : Fits (opened indents column) (wider + 1) (column + 2) false v) :
      Leads ⟨pad 1 ++ (block (column + 2) v ++ (pad count ++ rest)), wider, opened indents column,
          false, emitted⟩
        ⟨rest, count, opened indents column, true, (tokens false v).reverse ++ emitted⟩ :=
    (leads_pad emitted (start (column + 2)) 1).trans
      (hv.1 emitted next (lt_of_opened (by omega)) fits)
  match v with
  | .map (m :: ms) =>
    have value := hv.1 emitted next (lt_of_opened (by omega : column < column + 2)) ⟨rfl, rfl⟩
    simpa [valueText, tokens] using (below (column + 2) (column + 2)).trans value
  | .list (x :: xs) =>
    have items := hv.2 x xs rfl emitted inside_opened (opened_opened ▸ next)
    rw [opened_opened, opening_opened] at items
    simpa [valueText, tokens, block_list] using (below column column).trans items
  | .null | .bool _ | .int _ | .float _ | .str _ | .list [] | .map [] =>
    simpa [valueText, tokens, pad] using beside (by simp [Fits])

variable (key)

/-- The key after a question mark and its value are read. -/
theorem leads_explicitText (hv : ReadsBlock v) (next : Next (opened indents column) count rest) :
    Leads
      ⟨explicitText column key v ++ (pad count ++ rest), column + 2, opened indents column, true,
        emitted⟩
      ⟨rest, count, opened indents column, true,
        (textToken key :: .value :: tokens false v).reverse ++ emitted⟩ := by
  have start := startsToken_block v (column + 2) (pad count ++ rest)
  have colon : StartsToken (':' :: ' ' :: (block (column + 2) v ++ (pad count ++ rest))) :=
    ⟨':', _, rfl, by decide, by decide⟩
  have next' : Next (opened indents column) column _ := next_opened colon
  have right : ∀ i ∈ (opened indents column).head?, i < column + 2 := lt_of_opened (by omega)
  have keyText := leads_text emitted key next' (inside_of_lt right)
    (fun (_ : true = true) => head?_ne_of_lt right)
  have inside : Inside (opened indents column) column := inside_opened
  have mark := leads_explicitValue (textToken key :: emitted) start inside
  rw [opened_opened, opening_opened] at mark
  have value := hv (.value :: textToken key :: emitted) next right (fits_opened v)
  rw [innerIndent_opened] at keyText
  simpa [explicitText] using keyText.trans (mark.trans value)

/-- A member is read, its key simple or not. -/
theorem leads_member (hv : ReadsValue v)
    (inside : Inside indents column) (next : Next (opened indents column) count rest) :
    Leads ⟨(if isSimpleKey key then textChars column key ++ ':' :: valueText column v
        else '?' :: ' ' :: explicitText column key v) ++ (pad count ++ rest), column, indents, true,
        emitted⟩
      ⟨rest, count, opened indents column, true,
        (.key :: textToken key :: .value :: tokens (isSimpleKey key) v).reverse ++
          opening indents column .blockMapping emitted⟩ := by
  by_cases simple : isSimpleKey key = true
  · obtain ⟨noBreak, nonempty, short⟩ := textChars_simpleKey simple column
    have ends : atBlankOrEnd (valueText column v ++ (pad count ++ rest)) = true := by
      unfold valueText
      split <;> rfl
    have keyText := leads_simpleKey emitted (readsNode_simpleKey simple column ends)
      (startsToken_textChars key column _) (inLine_textChars key column (by decide) _) noBreak
      nonempty short ends inside
    have value := leads_valueText (.value :: textToken key :: .key ::
      opening indents column .blockMapping emitted) hv
      (by omega : column < column + (textChars column key).length + 1) next
    simpa [simple] using keyText.trans value
  · rw [Bool.not_eq_true] at simple
    have start : StartsToken (explicitText column key v ++ (pad count ++ rest)) := by
      rw [explicitText, textLine, List.append_assoc, List.append_assoc]
      exact startsToken_textChars key (column + 2) _
    have mark := leads_explicitKey emitted start inside
    have more := leads_explicitText key (.key :: opening indents column .blockMapping emitted)
      hv.1 next
    simpa [simple] using mark.trans more

end Member

theorem readsMembers_cons {key : String} (hv : ReadsValue v) (hms : ms ≠ [] → ReadsMembers ms) :
    ReadsMembers ((key, v) :: ms) := by
  intro indents count column rest emitted inside next
  rw [membersText_cons]
  by_cases last : ms = []
  · subst last
    simpa [memberTokens] using leads_member key emitted hv inside next
  · have start : StartsToken (membersText column ms ++ (pad count ++ rest)) :=
      startsToken_membersText last _
    have member := leads_member key emitted hv inside
      (next_opened start)
    have more := hms last ((.key :: textToken key :: .value ::
      tokens (isSimpleKey key) v).reverse ++ opening indents column .blockMapping emitted)
      inside_opened (opened_opened ▸ next)
    rw [opened_opened, opening_opened] at more
    simpa [last, memberTokens] using member.trans more

/-! ### All values -/

theorem readsValue_of_ne (h : ReadsBlock v) (other : ∀ x xs, v ≠ .list (x :: xs)) :
    ReadsValue v :=
  ⟨h, fun x xs eq => absurd eq (other x xs)⟩

theorem readsValue_list {x : Value} (items : ReadsItems (x :: xs)) :
    ReadsValue (.list (x :: xs)) := by
  refine ⟨readsBlock_list (by simp) items, fun y ys eq => ?_⟩
  rw [← Value.list.inj eq]
  exact items

mutual

/-- A value is read as its tokens where the writer puts it. -/
theorem readsValue : ∀ v, ReadsValue v
  | .null | .bool _ | .int _ | .float _ =>
    readsValue_of_ne (readsBlock_spelled (by trivial)) (by simp)
  | .str s => readsValue_of_ne (readsBlock_str s) (by simp)
  | .list [] => readsValue_of_ne (readsBlock_empty (.inl rfl)) (by simp)
  | .list (x :: xs) => readsValue_list (readsItems (x :: xs) (by simp))
  | .map [] => readsValue_of_ne (readsBlock_empty (.inr rfl)) (by simp)
  | .map (m :: ms) =>
    readsValue_of_ne (readsBlock_map (by simp) (readsMembers (m :: ms) (by simp))) (by simp)

/-- The items of a list are read one after the other. -/
theorem readsItems : ∀ xs, xs ≠ [] → ReadsItems xs
  | [], h => absurd rfl h
  | x :: xs, _ => readsItems_cons (readsValue x).1 (readsItems xs)

/-- The members of a map are read one after the other. -/
theorem readsMembers : ∀ ms, ms ≠ [] → ReadsMembers ms
  | [], h => absurd rfl h
  | (_, v) :: ms, _ => readsMembers_cons (readsValue v) (readsMembers ms)

end

/-! ## Documents -/

section Document

variable {rest : List Char} (emitted : List Token)

/-- A document is read to the end of the text or to the mark of the next one. -/
theorem leads_document (v : Value) (next : Next [] 0 rest) :
    Leads ⟨document v ++ rest, 0, [], true, emitted⟩
      ⟨rest, 0, [], true, (tokens false v).reverse ++ emitted⟩ := by
  have inside : ∀ i ∈ ([] : List Nat).head?, i < 0 := by simp
  by_cases text : ∃ s, v = .str s
  · obtain ⟨s, rfl⟩ := text
    exact readsBlock_str s emitted next inside rfl
  · have fits : Fits [] 0 0 true v := by
      unfold Fits
      split <;> simp_all
    have doc : document v = block 0 v := by
      unfold document
      split
      · simp_all
      · rfl
    rw [doc]
    exact (readsValue v).1 emitted next inside fits

theorem startsToken_document (v : Value) (tail : List Char) : StartsToken (document v ++ tail) := by
  unfold document
  split
  · rw [textLine, List.append_assoc]
    exact startsToken_textChars _ _ _
  · exact startsToken_block _ _ _

/-- The line that marks the start of a document is read. -/
theorem leads_start (start : StartsToken rest) :
    Leads ⟨'-' :: '-' :: '-' :: '\n' :: rest, 0, [], true, emitted⟩
      ⟨rest, 0, [], true, .documentStart :: emitted⟩ := by
  have mark : StartsToken ('-' :: '-' :: '-' :: '\n' :: rest) :=
    ⟨'-', _, rfl, by decide, by decide⟩
  have dash : isBreak '-' = false := by decide
  have line : Leads ⟨'\n' :: rest, 3, [], false, .documentStart :: emitted⟩
      ⟨rest, 0, [], true, .documentStart :: emitted⟩ := leads_line _ start 0
  refine Leads.trans (fun index lineNumber => ⟨index + 3, lineNumber, ?_⟩) line
  refine Lexer.leads_of_step (settle_self mark (by simp [Inside]) index lineNumber)
    (by simp [toLexer]) ?_ (by simp [toLexer])
  rw [Lexer.step_mark rfl rfl]
  simp [toLexer, Lexer.documentMark, Lexer.leaveAll, Lexer.closeAll, Lexer.inFlow,
    Lexer.dropPending, Lexer.take, Lexer.emit, Cursor.skip, Cursor.next_of_noBreak dash]

/-- The text of documents, each after a mark of its own. -/
def streamText (vs : List Value) : List Char :=
  vs.flatMap fun v => '-' :: '-' :: '-' :: '\n' :: document v

/-- The tokens of documents. -/
def streamTokens (vs : List Value) : List Token :=
  vs.flatMap fun v => .documentStart :: tokens false v

theorem next_streamText (vs : List Value) : Next [] 0 (streamText vs) := by
  cases vs with
  | nil => exact .finish
  | cons v vs => exact .mark rfl

theorem leads_stream (vs : List Value) :
    Leads ⟨streamText vs, 0, [], true, emitted⟩
      ⟨[], 0, [], true, (streamTokens vs).reverse ++ emitted⟩ := by
  induction vs generalizing emitted with
  | nil => exact fun index line => ⟨index, line, fun _ h => h⟩
  | cons v vs ih =>
    have mark := leads_start emitted (startsToken_document v (streamText vs))
    have content := leads_document (.documentStart :: emitted) v (next_streamText vs)
    simpa [streamText, streamTokens] using mark.trans (content.trans (ih _))

/-- At the end of a text the tokens are those that were found. -/
theorem lexes_finish (index line : Nat) :
    (toLexer ⟨[], 0, [], true, emitted⟩ index line).Lexes emitted.reverse := by
  intro fuel enough
  obtain ⟨fuel, rfl⟩ : ∃ n, fuel = n + 1 := ⟨fuel - 1, by omega⟩
  rfl

end Document

end Place

/-! ## Printable documents -/

theorem printable_valueText {v : Value} (h : ∀ indent, Printable (block indent v)) (column : Nat) :
    Printable (valueText column v) := by
  unfold valueText
  split
  · exact printable_append.2 ⟨printable_cons.2 ⟨by decide, printable_pad _⟩, h _⟩
  · exact printable_append.2 ⟨printable_cons.2 ⟨by decide, printable_pad _⟩, h _⟩
  · exact printable_cons.2 ⟨by decide, h _⟩

theorem printable_member {v : Value} (h : ∀ indent, Printable (block indent v)) (key : String)
    {column : Nat} :
    Printable (if isSimpleKey key then textChars column key ++ ':' :: valueText column v
      else '?' :: ' ' :: explicitText column key v) := by
  split_ifs
  · exact printable_append.2 ⟨(printable_append.1 (printable_textLine key column)).1,
      printable_cons.2 ⟨by decide, printable_valueText h column⟩⟩
  · have value : Printable (':' :: ' ' :: block (column + 2) v) :=
      printable_cons.2 ⟨by decide, printable_cons.2 ⟨by decide, h _⟩⟩
    exact printable_cons.2 ⟨by decide, printable_cons.2 ⟨by decide, printable_append.2
      ⟨printable_textLine key (column + 2), printable_append.2 ⟨printable_pad column, value⟩⟩⟩⟩

mutual

/-- Whatever is written of a value is printable. -/
theorem printable_block : ∀ (v : Value) (indent : Nat), Printable (block indent v)
  | .null, indent | .bool _, indent | .int _, indent | .float _, indent => by
    rw [block_spelling (by trivial)]
    exact printable_append.2 ⟨(unquoted_spelling (by trivial)).printable, by decide⟩
  | .list [], _ => by
    show Printable ['[', ']', '\n']
    decide
  | .map [], _ => by
    show Printable ['\x7b', '\x7d', '\n']
    decide
  | .str s, indent => printable_textLine s indent
  | .list (x :: xs), indent => printable_itemsText (x :: xs) indent
  | .map (m :: ms), indent => printable_membersText (m :: ms) indent

theorem printable_itemsText : ∀ (xs : List Value) (column : Nat),
    Printable (itemsText column xs)
  | [], _ => by simp [itemsText, itemBlocks, Printable]
  | x :: xs, column => by
    have rest : Printable (if xs = [] then [] else pad column ++ itemsText column xs) := by
      split_ifs
      · simp [Printable]
      · exact printable_append.2 ⟨printable_pad column, printable_itemsText xs column⟩
    rw [itemsText_cons]
    exact printable_append.2 ⟨printable_cons.2 ⟨by decide, printable_cons.2 ⟨by decide,
      printable_block x (column + 2)⟩⟩, rest⟩

theorem printable_membersText : ∀ (ms : List (String × Value)) (column : Nat),
    Printable (membersText column ms)
  | [], _ => by simp [membersText, memberBlocks, Printable]
  | (key, v) :: ms, column => by
    have rest : Printable (if ms = [] then [] else pad column ++ membersText column ms) := by
      split_ifs
      · simp [Printable]
      · exact printable_append.2 ⟨printable_pad column, printable_membersText ms column⟩
    rw [membersText_cons]
    exact printable_append.2 ⟨printable_member (printable_block v) key, rest⟩

end

theorem printable_document (v : Value) : Printable (document v) := by
  unfold document
  split
  · exact printable_textLine _ 2
  · exact printable_block v 0

theorem printable_streamText (vs : List Value) : Printable (Place.streamText vs) := by
  intro c mem
  obtain ⟨v, -, mem⟩ := List.mem_flatMap.1 mem
  have mark : Printable ['-', '-', '-', '\n'] := by decide
  exact printable_append.2 ⟨mark, printable_document v⟩ c mem

/-! ## Texts as tokens -/

theorem tokens?_of_lexes {cs : List Char} {ts : List Token} (printable : Printable cs)
    (h : (Place.toLexer ⟨cs, 0, [], true, []⟩ 0 0).Lexes ts) :
    tokens? (String.ofList cs) = some ts := by
  have allowed : cs.all isAllowed = true :=
    List.all_eq_true.2 fun c mem => isAllowed_of_isPrintable (printable c mem)
  unfold tokens?
  simp only [String.toList_ofList, allowed, if_true, lineFeeds_eq_self printable]
  exact h (cs.length + 1) (Nat.lt_succ_self cs.length)

/-- The text of a value has its tokens. -/
theorem tokens?_write (v : Value) : tokens? (write v) = some (tokens false v) := by
  obtain ⟨index, line, leads⟩ := Place.leads_document [] v .finish 0 0
  have lexes := leads _ (Place.lexes_finish _ index line)
  rw [List.append_nil, List.append_nil, List.reverse_reverse] at lexes
  exact tokens?_of_lexes (printable_document v) lexes

/-- The text of several values has the tokens of each, after the mark of a document. -/
theorem tokens?_writeStream (vs : List Value) :
    tokens? (writeStream vs) = some (Place.streamTokens vs) := by
  obtain ⟨index, line, leads⟩ := Place.leads_stream [] vs 0 0
  have lexes := leads _ (Place.lexes_finish _ index line)
  rw [List.append_nil, List.reverse_reverse] at lexes
  exact tokens?_of_lexes (printable_streamText vs) lexes

end LogForwarder.Yaml
