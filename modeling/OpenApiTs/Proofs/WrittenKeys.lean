import OpenApiTs.DeclarationFile
import OpenApiTs.Json.Reader
import OpenApiTs.Proofs.Enumerations
import OpenApiTs.Proofs.Keys

/-!
# Keys are read back

A key stands in a declaration as it is if it is an identifier, and as a JSON text in quotation marks
otherwise. Either way it is read back: such a text has no control character, and no quotation mark
inside that would end it. Since an identifier does not begin with a quotation mark, different keys
stay different when they are written.

So the keys of fields tell the raw names of properties, as long as no convention brings these under
one name. The keys of operations are made different first. The key of an operation is its own text,
or this text with the smallest number from two on, if an earlier entry has the text already. This
may in turn be the text of a later operation, which then takes a number itself.

## Main definitions

* `Text.IsLiteral`: a JSON text in quotation marks for a value.
* `Naming.IsWritten`: a name as it stands in a declaration.
* `DeclarationFile.IsKeyFor`: the key that a text is given after some keys.
* `DeclarationFile.IsEntryFor`: the entry of an operation after entries with some keys.

## Main results

* `Text.isLiteral_quote`: a text in quotation marks is read back.
* `NamingRules.fieldName_reads_back`: keys of fields.
* `DeclarationFile.isKeyFor_freeKey`: the key of one operation.
* `DeclarationFile.operationsText_entries`: the entries of all operations.
-/

namespace OpenApiTs

/-! ### Texts in quotation marks -/

/-- A value that begins with a quotation mark is a text. -/
theorem Json.Reader.value?_quoted (depth : Nat) (cs : List Char) :
    value? depth ('"' :: cs) =
      (Text.unquote? cs).bind fun (cs, rest) => some (.string (String.ofList cs), rest) := by
  cases depth <;> rfl

namespace Text

/-- The number of backslashes at the end of a text. -/
def backslashes (cs : List Char) : Nat := cs.foldl (fun n c => if c = '\\' then n + 1 else 0) 0

/-- No quotation mark ends the text: each has an odd number of backslashes before it. -/
def EscapesMarks (cs : List Char) : Prop :=
  ∀ before after, cs = before ++ '"' :: after → backslashes before % 2 = 1

/-- A JSON text in quotation marks, without control characters and with no quotation mark inside
that ends it, that is read as the value. -/
structure IsLiteral (text value : String) : Prop where
  marks : ∃ body, text.toList = '"' :: (body ++ ['"']) ∧ (∀ c ∈ body, 32 ≤ c.toNat) ∧
    EscapesMarks body
  reads : ∀ depth, Json.read? depth text = some (.string value)

theorem backslashes_append_slash (cs : List Char) :
    backslashes (cs ++ ['\\']) = backslashes cs + 1 := by
  rw [backslashes, List.foldl_append, List.foldl_cons, if_pos rfl, List.foldl_nil, backslashes]

theorem backslashes_append_of_ne (cs : List Char) {c : Char} (h : c ≠ '\\') :
    backslashes (cs ++ [c]) = 0 := by
  rw [backslashes, List.foldl_append, List.foldl_cons, if_neg h, List.foldl_nil]

/-- A written character: an escaped quotation mark, an escaped backslash, or characters without
quotation marks of which the last is no backslash. -/
inductive Written : List Char → Prop
  | mark : Written ['\\', '"']
  | slash : Written ['\\', '\\']
  | of_append (front : List Char) {last : Char} (hfront : '"' ∉ front) (hmark : last ≠ '"')
      (hslash : last ≠ '\\') : Written (front ++ [last])

private theorem hexDigit_printable : ∀ n < 16,
    32 ≤ (hexDigit n).toNat ∧ '"' ≠ hexDigit n ∧ hexDigit n ≠ '\\' := by decide

theorem written_escapeChar (c : Char) :
    (∀ d ∈ escapeChar c, 32 ≤ d.toNat) ∧ Written (escapeChar c) := by
  have hshort {d : Char} (hd : 32 ≤ d.toNat) (hmark : d ≠ '"') (hslash : d ≠ '\\') :
      (∀ e ∈ ['\\', d], 32 ≤ e.toNat) ∧ Written ['\\', d] :=
    ⟨List.forall_mem_cons.mpr ⟨by decide, List.forall_mem_singleton.mpr hd⟩,
      .of_append ['\\'] (by decide) hmark hslash⟩
  obtain ⟨written, hwritten⟩ : ∃ written, written = escapeChar c := ⟨_, rfl⟩
  rw [← hwritten]
  unfold escapeChar at hwritten
  split_ifs at hwritten with hquote hslash _ _ _ _ _ hcontrol <;> subst hwritten
  · exact ⟨by decide, .mark⟩
  · exact ⟨by decide, .slash⟩
  · exact hshort (by decide) (by decide) (by decide)
  · exact hshort (by decide) (by decide) (by decide)
  · exact hshort (by decide) (by decide) (by decide)
  · exact hshort (by decide) (by decide) (by decide)
  · exact hshort (by decide) (by decide) (by decide)
  · obtain ⟨hhigh, hmark, -⟩ := hexDigit_printable (c.toNat / 16) (by omega)
    obtain ⟨hlow, hmark', hslash'⟩ := hexDigit_printable (c.toNat % 16) (by omega)
    have hfixed : ∀ d ∈ ['\\', 'u', '0', '0'], 32 ≤ d.toNat := by decide
    refine ⟨List.forall_mem_append.mpr ⟨hfixed, List.forall_mem_cons.mpr
      ⟨hhigh, List.forall_mem_singleton.mpr hlow⟩⟩, ?_⟩
    exact .of_append ['\\', 'u', '0', '0', hexDigit (c.toNat / 16)] (by simp [hmark])
      hmark'.symm hslash'
  · exact ⟨List.forall_mem_singleton.mpr (Nat.not_lt.mp hcontrol),
      .of_append [] List.not_mem_nil hquote hslash⟩

namespace Written

variable {written rest before after : List Char}

/-- Backslashes that are not paired up stay so. -/
theorem even (h : Written written) {start : List Char} (hstart : backslashes start % 2 = 0) :
    backslashes (start ++ written) % 2 = 0 := by
  cases h with
  | mark =>
    rw [← List.singleton_append, ← List.append_assoc, backslashes_append_of_ne _ (by decide)]
  | slash =>
    rw [← List.singleton_append, ← List.append_assoc, backslashes_append_slash,
      backslashes_append_slash]
    omega
  | of_append _ _ _ hslash => rw [← List.append_assoc, backslashes_append_of_ne _ hslash]

/-- A quotation mark in what begins with a written character is the escaped one, or comes later. -/
theorem eq_or_later (h : Written written) (hsplit : written ++ rest = before ++ '"' :: after) :
    before = ['\\'] ∨ ∃ between, before = written ++ between ∧ rest = between ++ '"' :: after := by
  rcases List.append_eq_append_iff.mp hsplit with
    ⟨between, hbefore, hrest⟩ | ⟨inner, hwritten, hafter⟩
  · exact .inr ⟨between, hbefore, hrest⟩
  rcases List.cons_eq_append_iff.mp hafter with ⟨rfl, hrest⟩ | ⟨inner, rfl, -⟩
  · rw [List.append_nil] at hwritten
    exact .inr ⟨[], by rw [hwritten, List.append_nil], hrest⟩
  have hmem : '"' ∈ written := hwritten ▸ by simp
  cases h with
  | mark =>
    rcases before with _ | ⟨c, _ | ⟨d, before⟩⟩
    · simp at hwritten
    · rw [(List.cons.inj hwritten).1]
      exact .inl rfl
    · simp at hwritten
  | slash => simp at hmem
  | of_append _ hfront hmark _ =>
    rw [List.mem_append, List.mem_singleton] at hmem
    exact absurd hmem (not_or.mpr ⟨hfront, hmark.symm⟩)

end Written

/-- Induction on the text. What is written before it ends in an even number of backslashes, so that
the first character of the text is not taken for an escape. -/
theorem backslashes_before_mark {cs start before after : List Char}
    (hstart : backslashes start % 2 = 0) (h : escape cs = before ++ '"' :: after) :
    backslashes (start ++ before) % 2 = 1 := by
  induction cs generalizing start before with
  | nil => simp [escape] at h
  | cons c cs ih =>
    rw [escape, List.flatMap_cons, ← escape] at h
    obtain ⟨-, hc⟩ := written_escapeChar c
    rcases hc.eq_or_later h with rfl | ⟨between, rfl, hlater⟩
    · rw [backslashes_append_slash]
      omega
    · rw [← List.append_assoc]
      exact ih (hc.even hstart) hlater

/-- A text in quotation marks is read back. -/
theorem isLiteral_quote (s : String) : IsLiteral (quote s) s where
  marks := by
    refine ⟨escape s.toList, toList_quote s, fun d hd => ?_, fun before after h => ?_⟩
    · obtain ⟨c, -, hd⟩ := List.mem_flatMap.mp hd
      exact (written_escapeChar c).1 d hd
    · exact backslashes_before_mark (rfl : backslashes [] % 2 = 0) h
  reads depth := by
    have hskip : Json.Reader.skip (quote s).toList = '"' :: (escape s.toList ++ ['"']) := by
      rw [toList_quote]
      rfl
    have hvalue : Json.Reader.value? depth ('"' :: (escape s.toList ++ ['"'])) =
        some (.string s, []) := by
      rw [Json.Reader.value?_quoted, unquote?_escape, Option.bind_some]
      dsimp only
      rw [String.ofList_toList]
    rw [Json.read?, hskip, hvalue]
    rfl

namespace IsLiteral

variable {text value : String}

/-- A text in quotation marks has one value. -/
theorem value_unique (h : IsLiteral text value) {value' : String} (h' : IsLiteral text value') :
    value = value' := by
  have := (h.reads 0).symm.trans (h'.reads 0)
  simpa using this

/-- A text in quotation marks is no identifier. -/
theorem not_isIdentifier (h : IsLiteral text value) : Naming.isIdentifier text = false := by
  obtain ⟨body, hbody, -⟩ := h.marks
  rw [Naming.isIdentifier, hbody]
  rfl

end IsLiteral

end Text

/-! ### Names as they are written -/

namespace Naming

/-- A name as it stands in a declaration: itself if it is an identifier, and a text in quotation
marks that is read as the name otherwise. -/
def IsWritten (name text : String) : Prop :=
  if isIdentifier name then text = name else Text.IsLiteral text name

theorem isWritten_ite (name : String) :
    IsWritten name (if isIdentifier name then name else Text.quote name) := by
  unfold IsWritten
  split
  · rfl
  · exact Text.isLiteral_quote name

/-- Different names are written differently. -/
theorem IsWritten.inj {a b text : String} (ha : IsWritten a text) (hb : IsWritten b text) :
    a = b := by
  unfold IsWritten at ha hb
  split_ifs at ha hb with ha' hb' hb'
  · exact ha.symm.trans hb
  · rw [← ha, hb.not_isIdentifier] at ha'
    cases ha'
  · rw [← hb, ha.not_isIdentifier] at hb'
    cases hb'
  · exact ha.value_unique hb

end Naming

namespace NamingRules

/-- Without a convention for fields every raw name is written as it is, so that the keys of
different names are different. -/
theorem fieldName_reads_back (rules : NamingRules) (h : rules.fields = none) :
    (∀ raw, Naming.IsWritten raw (rules.fieldName raw)) ∧
      Function.Injective rules.fieldName := by
  have hwritten raw : Naming.IsWritten raw (rules.fieldName raw) := by
    rw [fieldName_eq, fieldStem_of_none rules h]
    exact Naming.isWritten_ite raw
  exact ⟨hwritten, fun a b hab => (hwritten a).inj (hab ▸ hwritten b)⟩

theorem fieldName_reads_back_marks :
    ({} : NamingRules).fields = none ∧
      ({} : NamingRules).fieldName "a\"\\\x07" = "\"a\\\"\\\\\\u0007\"" ∧
      Text.IsLiteral "\"a\\\"\\\\\\u0007\"" "a\"\\\x07" := by
  have hwritten := (fieldName_reads_back {} rfl).1 "a\"\\\x07"
  have hname : ({} : NamingRules).fieldName "a\"\\\x07" = "\"a\\\"\\\\\\u0007\"" := by decide
  rw [Naming.IsWritten, if_neg (by decide), hname] at hwritten
  exact ⟨rfl, hname, hwritten⟩

end NamingRules

/-! ### Keys of operations -/

namespace DeclarationFile

/-- The key that a text is given after the keys used: the text itself if it is free, and with the
smallest number from two on that makes it free otherwise. -/
inductive IsKeyFor (used : List String) (base : String) : String → Prop
  | base (hfree : base ∉ used) : IsKeyFor used base base
  | numbered (hused : base ∈ used) {n : Nat} (hn : 2 ≤ n) (hfree : base ++ n.repr ∉ used)
      (hleast : ∀ k, 2 ≤ k → k < n → base ++ k.repr ∈ used) :
      IsKeyFor used base (base ++ n.repr)

variable {used : List String} {base key : String}

theorem IsKeyFor.not_mem (h : IsKeyFor used base key) : key ∉ used := by
  cases h <;> assumption

/-- Only what the keys used are counts, not their order. -/
theorem IsKeyFor.congr {used' : List String} (hmem : ∀ name, name ∈ used ↔ name ∈ used')
    (h : IsKeyFor used base key) : IsKeyFor used' base key := by
  cases h with
  | base hfree => exact .base (mt (hmem _).mpr hfree)
  | numbered hused hn hfree hleast =>
    exact .numbered ((hmem _).mp hused) hn (mt (hmem _).mpr hfree) fun k hk hlt =>
      (hmem _).mp (hleast k hk hlt)

theorem firstFree_eq (used : List String) (base : String) (count n : Nat) :
    firstFree used base count n = Enumeration.firstFree used base count n := by
  induction count generalizing n with
  | zero => rfl
  | succ count ih => rw [firstFree, Enumeration.firstFree, ih]

/-- The search takes the first number that makes the text free, or the last one it tries. -/
theorem firstFree_least (used : List String) (base : String) (count n : Nat) :
    ∃ m, n ≤ m ∧ firstFree used base count n = base ++ m.repr ∧
      ∀ k, n ≤ k → k < m → base ++ k.repr ∈ used := by
  induction count generalizing n with
  | zero => exact ⟨n, le_rfl, rfl, fun k hle hlt => by omega⟩
  | succ count ih =>
    rw [firstFree]
    split
    · next htaken =>
      obtain ⟨m, hle, heq, hleast⟩ := ih (n + 1)
      refine ⟨m, by omega, heq, fun k hk hlt => ?_⟩
      rcases hk.eq_or_lt with rfl | hk
      · exact List.contains_iff_mem.mp htaken
      · exact hleast k hk hlt
    · exact ⟨n, le_rfl, rfl, fun k hle hlt => by omega⟩

/-- A text is given its key. -/
theorem isKeyFor_freeKey (used : List String) (base : String) :
    IsKeyFor used base (freeKey used base) := by
  unfold freeKey
  split
  · next htaken =>
    have hfree := Enumeration.firstFree_length_not_mem used base
    rw [← firstFree_eq] at hfree
    obtain ⟨m, hm, heq, hleast⟩ := firstFree_least used base used.length 2
    rw [heq] at hfree ⊢
    exact .numbered (List.contains_iff_mem.mp htaken) hm hfree hleast
  · next hfree => exact .base (mt List.contains_iff_mem.mpr hfree)

/-- Every operation is given its key after the keys of the operations before it. -/
theorem isKeyFor_entryKeysFrom (used : List String) (operations : List OperationTypes) :
    (entryKeysFrom used operations).length = operations.length ∧
      ∀ (i : Nat) o key, operations[i]? = some o → (entryKeysFrom used operations)[i]? = some key →
        IsKeyFor (used ++ (entryKeysFrom used operations).take i) (entryBase o) key := by
  induction operations generalizing used with
  | nil => exact ⟨rfl, fun i o key ho => absurd ho (by simp)⟩
  | cons o rest ih =>
    obtain ⟨hlength, hkeys⟩ := ih (freeKey used (entryBase o) :: used)
    rw [entryKeysFrom]
    refine ⟨congrArg (· + 1) hlength, fun i o' key ho hkey => ?_⟩
    cases i with
    | zero =>
      obtain rfl : o = o' := Option.some.inj ho
      obtain rfl : freeKey used (entryBase o) = key := Option.some.inj hkey
      rw [List.take_zero, List.append_nil]
      exact isKeyFor_freeKey used (entryBase o)
    | succ i =>
      refine (hkeys i o' key ho hkey).congr fun name => ?_
      simp only [List.take_succ_cons, List.mem_append, List.mem_cons]
      tauto

/-- Keys that are each free of those before them are distinct. -/
theorem nodup_entryKeys (operations : List OperationTypes) : (entryKeys operations).Nodup := by
  obtain ⟨hlength, hkeys⟩ := isKeyFor_entryKeysFrom [] operations
  refine List.nodup_iff_getElem?_ne_getElem?.mpr fun i j hij hj heq => ?_
  have hlater := (hkeys j _ _ (List.getElem?_eq_getElem (hlength ▸ hj))
    (List.getElem?_eq_getElem hj)).not_mem
  refine hlater (List.mem_of_getElem? (i := i) ?_)
  rw [List.nil_append, List.getElem?_take_of_lt hij]
  exact heq.trans (List.getElem?_eq_getElem hj)

/-- A key is written as a name. -/
theorem isWritten_writtenKey (key : String) : Naming.IsWritten key (writtenKey key) :=
  Naming.isWritten_ite key

/-- The entry of an operation after entries with the keys used: a comment if comments are asked
for, the key as it is written, and the types in their slots, which are `never` without a type. -/
structure IsEntryFor (emitDocs : Bool) (used : List String) (o : OperationTypes)
    (key written entry : String) : Prop where
  isKey : IsKeyFor used (o.operationId.getD o.name) key
  isWritten : Naming.IsWritten key written
  text : entry =
    (if emitDocs then Declaration.docComment [o.method.title ++ " " ++ o.path] "  " else "") ++
      "  " ++ written ++ ": \x7b\n    request: " ++ o.request.getD "never" ++
      ";\n    params: " ++ o.params.getD "never" ++ ";\n    response: " ++
      o.response.getD "never" ++ ";\n  \x7d;\n"

theorem isEntryFor_entryText {o : OperationTypes} (emitDocs : Bool)
    (hkey : IsKeyFor used (entryBase o) key) :
    IsEntryFor emitDocs used o key (writtenKey key) (entryText emitDocs key o) where
  isKey := hkey
  isWritten := isWritten_writtenKey key
  text := by
    rw [← String.toList_inj]
    simp [entryText, slotText]

/-- The interface of operations has one entry for each operation, in their order. The key of an
entry is the identifier of the operation, or else its name, unless an entry before it has this key,
and with the smallest number that makes it free then. Different keys are written differently. -/
theorem operationsText_entries (name : String) (operations : List OperationTypes)
    (emitDocs : Bool) :
    ∃ keys written entries : List String,
      operationsText name operations emitDocs =
        "export interface " ++ name ++ " \x7b\n" ++ String.join entries ++ "\x7d\n" ∧
      keys.length = operations.length ∧ written.length = operations.length ∧
      entries.length = operations.length ∧
      (∀ (i : Nat) o, operations[i]? = some o → ∃ key text entry,
        keys[i]? = some key ∧ written[i]? = some text ∧ entries[i]? = some entry ∧
          IsEntryFor emitDocs (keys.take i) o key text entry) ∧
      written.Nodup := by
  obtain ⟨hlength, hkeys⟩ := isKeyFor_entryKeysFrom [] operations
  refine ⟨entryKeys operations, (entryKeys operations).map writtenKey,
    List.zipWith (entryText emitDocs) (entryKeys operations) operations, rfl, hlength,
    (List.length_map _).trans hlength, ?_, fun i o ho => ?_, ?_⟩
  · rw [List.length_zipWith, entryKeys, hlength, Nat.min_self]
  · have hi : i < (entryKeys operations).length :=
      (List.getElem?_eq_some_iff.mp ho).1.trans_eq hlength.symm
    have hkey := List.getElem?_eq_getElem hi
    refine ⟨_, _, _, hkey, ?_, ?_, isEntryFor_entryText emitDocs (hkeys i o _ ho hkey)⟩
    · rw [List.getElem?_map, hkey, Option.map_some]
    · rw [List.getElem?_zipWith, hkey, ho]
  · refine (nodup_entryKeys operations).map fun a b hab => ?_
    exact (isWritten_writtenKey a).inj (hab ▸ isWritten_writtenKey b)

/-- Operations of which the second has the key of the first, and the third that of the second with
its number. -/
def petOperations : List OperationTypes := [
  { name := "Pets", operationId := some "pets", method := .get, path := "/pets",
    response := some "Pet[]" },
  { name := "pets", method := .post, path := "/pets", request := some "Pet" },
  { name := "Pets2", operationId := some "pets2", method := .get, path := "/pets/2" },
  { name := "DropPet", operationId := some "drop-pet", method := .delete, path := "/pets",
    params := some "DropPetParams" }]

/-- The second operation takes the key of the third, which takes a number itself. -/
theorem operationsText_entries_petOperations :
    operationsText "Operations" petOperations true =
      "export interface Operations \x7b\n" ++
      "  /** GET /pets */\n" ++
      "  pets: \x7b\n    request: never;\n    params: never;\n    response: Pet[];\n  \x7d;\n" ++
      "  /** POST /pets */\n" ++
      "  pets2: \x7b\n    request: Pet;\n    params: never;\n    response: never;\n  \x7d;\n" ++
      "  /** GET /pets/2 */\n" ++
      "  pets22: \x7b\n    request: never;\n    params: never;\n    response: never;\n  \x7d;\n" ++
      "  /** DELETE /pets */\n" ++
      "  \"drop-pet\": \x7b\n    request: never;\n    params: DropPetParams;\n" ++
      "    response: never;\n  \x7d;\n\x7d\n" ∧
    ∃ keys written entries : List String,
      operationsText "Operations" petOperations true =
        "export interface Operations \x7b\n" ++ String.join entries ++ "\x7d\n" ∧
      keys.length = 4 ∧ written.length = 4 ∧ entries.length = 4 ∧
      (∀ (i : Nat) o, petOperations[i]? = some o → ∃ key text entry,
        keys[i]? = some key ∧ written[i]? = some text ∧ entries[i]? = some entry ∧
          IsEntryFor true (keys.take i) o key text entry) ∧
      written.Nodup :=
  ⟨by decide +kernel, operationsText_entries "Operations" petOperations true⟩

end DeclarationFile

end OpenApiTs
