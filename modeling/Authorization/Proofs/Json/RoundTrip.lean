import Authorization.Json.Reader

/-!
# Values are read back as they were written

A value whose strings all have a text, and that has no numbers, is read back from its own line
(`parse?_render`): quoting loses nothing (`readString?_quoted`), and every value ends where its
text does, whatever follows (`Reads`).
-/

namespace Authorization.Json

section Strings

variable {c : Char} {rest : List Char}

theorem readUnits?_simple {escaped : Char} (simple : simpleEscape? c = some escaped) :
    readUnits? ('\\' :: c :: rest) =
      (readUnits? rest).map fun read => (.char escaped :: read.1, read.2) := by
  have other : c ≠ 'u' := by
    rintro rfl
    cases simple
  rw [readUnits?.eq_4 c rest fun _ _ _ _ _ same _ => other same, simple]
  cases readUnits? rest <;> rfl

theorem readUnits?_code {digits : List Char} {code : Nat} (four : digits.length = 4)
    (number : Text.readDigits? 16 0 digits = some code) :
    readUnits? ('\\' :: 'u' :: digits ++ rest) =
      (readUnits? rest).map fun read => (.ofCode code :: read.1, read.2) := by
  match digits, four with
  | [a, b, c, d], _ =>
      change readUnits? ('\\' :: 'u' :: a :: b :: c :: d :: rest) = _
      rw [readUnits?, number]
      cases readUnits? rest <;> rfl

theorem readUnits?_plain (quote : c ≠ '"') (backslash : c ≠ '\\') (shown : ¬c.val.toNat < 0x20) :
    readUnits? (c :: rest) = (readUnits? rest).map fun read => (.char c :: read.1, read.2) := by
  rw [readUnits?.eq_5 c rest quote (fun _ _ _ _ _ same _ => backslash same)
    fun _ _ same _ => backslash same, if_neg shown]

theorem codes_of_controls : ∀ n < 0x20,
    let digits := List.replicate (4 - (Nat.toDigits 16 n).length) '0' ++ Nat.toDigits 16 n
    digits.length = 4 ∧ Text.readDigits? 16 0 digits = some n := by
  decide

/-- A written character is read back as itself. -/
theorem readUnits?_escape (c : Char) (rest : List Char) :
    readUnits? (escape c ++ rest) =
      (readUnits? rest).map fun read => (.char c :: read.1, read.2) := by
  -- escapes of one letter, then other controls, then what stands for itself
  fun_cases escape c
  case case1 same => subst same; exact readUnits?_simple rfl
  case case2 same => subst same; exact readUnits?_simple rfl
  case case3 same => subst same; exact readUnits?_simple rfl
  case case4 same => subst same; exact readUnits?_simple rfl
  case case5 same => subst same; exact readUnits?_simple rfl
  case case6 control digits =>
    obtain ⟨four, number⟩ := codes_of_controls c.val.toNat control
    have unit : StringUnit.ofCode c.val.toNat = .char c := by
      rw [StringUnit.ofCode, if_neg (by omega), if_neg (by omega)]
      exact congrArg _ (Char.ofNat_toNat c)
    rw [← unit]
    exact readUnits?_code four number
  case case7 quote backslash _ _ _ shown => exact readUnits?_plain quote backslash shown

theorem readUnits?_quoted (text rest : List Char) :
    readUnits? (text.flatMap escape ++ '"' :: rest) = some (text.map .char, rest) := by
  induction text with
  | nil => rfl
  | cons c text ih =>
      rw [List.flatMap_cons, List.append_assoc, readUnits?_escape, ih]
      rfl

theorem decodeUnits?_char (text : List Char) : decodeUnits? (text.map .char) = some text := by
  induction text with
  | nil => rfl
  | cons c text ih =>
      rw [List.map_cons, decodeUnits?, ih]
      rfl

theorem toList_quote (text : String) :
    (quote text).toList = '"' :: (text.toList.flatMap escape ++ ['"']) := by
  simp [quote]

/-- A quoted text is read as it was. -/
theorem readString?_quoted (text : String) (rest : List Char) :
    readString? (text.toList.flatMap escape ++ '"' :: rest) = some (some text, rest) := by
  rw [readString?, readUnits?_quoted, Option.map_some]
  change some ((decodeUnits? (text.toList.map .char)).map String.ofList, rest) = _
  rw [decodeUnits?_char, Option.map_some, String.ofList_toList]

end Strings

/-- A value without numbers all of whose strings have a text. -/
inductive IsPlain : Json → Prop where
  | null : IsPlain null
  | boolean (truth : Bool) : IsPlain (boolean truth)
  | string (text : String) : IsPlain (string (some text))
  | array {items : List Json} (each : ∀ item ∈ items, IsPlain item) : IsPlain (array items)
  | object {members : List (Option String × Json)}
      (named : ∀ member ∈ members, member.1.isSome = true)
      (each : ∀ member ∈ members, IsPlain member.2) : IsPlain (object members)

/-- A value is read from its text, whatever follows, and its text begins with no space and does not
close an array. Twice the length of the text is fuel enough. -/
structure Reads (json : Json) : Prop where
  begins : ∃ c rest, json.render.toList = c :: rest ∧ isSpace c = false ∧ c ≠ ']'
  read : ∀ fuel rest, 2 * json.render.toList.length ≤ fuel →
    readValue? fuel (json.render.toList ++ rest) = some (json, rest)

theorem skipSpace_of_not_space {c : Char} {rest : List Char} (shown : isSpace c = false) :
    skipSpace (c :: rest) = c :: rest := by
  simp [skipSpace, shown]

theorem reads_null : Reads null where
  begins := ⟨'n', ['u', 'l', 'l'], rfl, rfl, by decide⟩
  read fuel rest enough := by
    match fuel, enough with
    | fuel + 1, _ => rfl

theorem reads_boolean (truth : Bool) : Reads (boolean truth) := by
  cases truth with
  | true =>
      exact ⟨⟨'t', ['r', 'u', 'e'], rfl, rfl, by decide⟩, fun
        | fuel + 1, _, _ => rfl⟩
  | false =>
      exact ⟨⟨'f', ['a', 'l', 's', 'e'], rfl, rfl, by decide⟩, fun
        | fuel + 1, _, _ => rfl⟩

/-- A written string is read back. -/
theorem reads_string (text : String) : Reads (string (some text)) where
  begins := ⟨'"', _, toList_quote text, rfl, by decide⟩
  read fuel rest enough := by
    change 2 * (quote text).toList.length ≤ fuel at enough
    change readValue? fuel ((quote text).toList ++ rest) = _
    rw [toList_quote] at enough ⊢
    match fuel, enough with
    | fuel + 1, _ =>
        have read := readString?_quoted text rest
        simp [readValue?, skipSpace_of_not_space, isSpace, read]

section Items

variable {items : List Json}

theorem toList_renderItems (item next : Json) (items : List Json) :
    (renderItems (item :: next :: items)).toList =
      item.render.toList ++ ',' :: (renderItems (next :: items)).toList := by
  simp [renderItems]

/-- Written items are read back if each of them is. -/
theorem readItems?_renderItems (filled : items ≠ []) (reads : ∀ item ∈ items, Reads item)
    (fuel : Nat) (rest : List Char)
    (enough : 2 * (renderItems items).toList.length + 1 ≤ fuel) :
    readItems? fuel ((renderItems items).toList ++ ']' :: rest) = some (items, rest) := by
  induction items generalizing fuel with
  | nil => exact absurd rfl filled
  | cons item items ih =>
      obtain ⟨fuel, rfl⟩ := Nat.exists_eq_add_of_le' (Nat.le_of_add_left_le enough)
      obtain ⟨here, others⟩ := List.forall_mem_cons.mp reads
      cases items with
      | nil =>
          rw [renderItems, readItems?, here.read fuel _ (by rw [renderItems] at enough; omega)]
          rfl
      | cons next items =>
          rw [toList_renderItems] at enough ⊢
          rw [List.length_append, List.length_cons] at enough
          rw [List.append_assoc, readItems?, here.read fuel _ (by omega)]
          change ((readItems? fuel ((renderItems (next :: items)).toList ++ ']' :: rest)).map _) = _
          rw [ih (by simp) others fuel (by omega)]
          rfl

theorem begins_renderItems (filled : items ≠ []) (reads : ∀ item ∈ items, Reads item) :
    ∃ c rest, (renderItems items).toList = c :: rest ∧ isSpace c = false ∧ c ≠ ']' := by
  match items, filled with
  | item :: items, _ =>
      obtain ⟨c, rest, text, shown, other⟩ := (reads item List.mem_cons_self).begins
      cases items with
      | nil => exact ⟨c, rest, text, shown, other⟩
      | cons next items => exact ⟨c, _, by rw [toList_renderItems, text]; rfl, shown, other⟩

theorem readValue?_array {c : Char} {fuel : Nat} {text : List Char} (shown : isSpace c = false)
    (other : c ≠ ']') :
    readValue? (fuel + 1) ('[' :: c :: text) =
      (readItems? fuel (c :: text)).map fun read => (array read.1, read.2) := by
  rw [readValue?, skipSpace_of_not_space rfl]
  simp only [skipSpace_of_not_space shown]
  split
  · rename_i same
    exact absurd (List.cons.inj same).1 other
  · rfl

/-- A written array is read back if its items are. -/
theorem reads_array (reads : ∀ item ∈ items, Reads item) : Reads (array items) := by
  have text : (array items).render.toList = '[' :: ((renderItems items).toList ++ [']']) := by
    simp [render]
  refine ⟨⟨'[', _, text, rfl, by decide⟩, fun fuel rest enough => ?_⟩
  rw [text] at enough ⊢
  rw [List.length_cons, List.length_append, List.length_singleton] at enough
  obtain ⟨fuel, rfl⟩ := Nat.exists_eq_add_of_le' (by omega : 1 ≤ fuel)
  by_cases bare : items = []
  · subst bare
    rfl
  · obtain ⟨c, begun, written, shown, other⟩ := begins_renderItems bare reads
    have read := readItems?_renderItems bare reads fuel rest (by omega)
    rw [List.cons_append, List.append_assoc, List.singleton_append, written, List.cons_append,
      readValue?_array shown other, ← List.cons_append, ← written, read]
    rfl

end Items

section Members

variable {members : List (Option String × Json)}

theorem toList_renderMember (name : String) (value : Json) :
    (renderMembers [(some name, value)]).toList =
      '"' :: (name.toList.flatMap escape ++ '"' :: ':' :: value.render.toList) := by
  simp [renderMembers, toList_quote]

theorem toList_renderMembers (name : String) (value : Json) (next : Option String × Json)
    (members : List (Option String × Json)) :
    (renderMembers ((some name, value) :: next :: members)).toList =
      (renderMembers [(some name, value)]).toList ++
        ',' :: (renderMembers (next :: members)).toList := by
  simp [renderMembers]

/-- What is read after a member of an object: the members after a comma, or the end. -/
def readFurther? (fuel : Nat) (member : Option String × Json) (text : List Char) :
    Option (List (Option String × Json) × List Char) :=
  match skipSpace text with
  | ',' :: rest => (readMembers? fuel rest).map fun read => (member :: read.1, read.2)
  | '}' :: rest => some ([member], rest)
  | _ => none

/-- A written member is read back before anything that may follow. -/
theorem readMembers?_member {fuel : Nat} {name : String} {value : Json} {rest : List Char}
    (reads : Reads value)
    (enough : 2 * (renderMembers [(some name, value)]).toList.length ≤ fuel) :
    readMembers? (fuel + 1) ((renderMembers [(some name, value)]).toList ++ rest) =
      readFurther? fuel (some name, value) rest := by
  rw [toList_renderMember] at enough ⊢
  simp only [List.length_cons, List.length_append] at enough
  have named := readString?_quoted name (':' :: (value.render.toList ++ rest))
  have read := reads.read fuel rest (by omega)
  rw [List.cons_append, List.append_assoc, List.cons_append, List.cons_append, readMembers?,
    skipSpace_of_not_space rfl]
  simp only [named]
  rw [skipSpace_of_not_space rfl]
  simp only [read]
  rfl

/-- Written members are read back if each of them is. -/
theorem readMembers?_renderMembers (filled : members ≠ [])
    (named : ∀ member ∈ members, member.1.isSome = true)
    (reads : ∀ member ∈ members, Reads member.2) (fuel : Nat) (rest : List Char)
    (enough : 2 * (renderMembers members).toList.length + 1 ≤ fuel) :
    readMembers? fuel ((renderMembers members).toList ++ '}' :: rest) = some (members, rest) := by
  induction members generalizing fuel with
  | nil => exact absurd rfl filled
  | cons member members ih =>
      obtain ⟨fuel, rfl⟩ := Nat.exists_eq_add_of_le' (Nat.le_of_add_left_le enough)
      obtain ⟨here, others⟩ := List.forall_mem_cons.mp reads
      obtain ⟨spelled, spellings⟩ := List.forall_mem_cons.mp named
      obtain ⟨name, value⟩ := member
      obtain ⟨name, rfl⟩ := Option.isSome_iff_exists.mp spelled
      change Reads value at here
      cases members with
      | nil =>
          rw [readMembers?_member here (by omega)]
          rfl
      | cons next members =>
          rw [toList_renderMembers] at enough ⊢
          rw [List.length_append, List.length_cons] at enough
          rw [List.append_assoc, readMembers?_member here (by omega), List.cons_append,
            readFurther?, skipSpace_of_not_space rfl]
          change ((readMembers? fuel ((renderMembers (next :: members)).toList ++ '}' :: rest)).map
            _) = _
          rw [ih (by simp) spellings others fuel (by omega)]
          rfl

theorem begins_renderMembers (filled : members ≠ [])
    (named : ∀ member ∈ members, member.1.isSome = true) :
    ∃ rest, (renderMembers members).toList = '"' :: rest := by
  match members, filled with
  | (name, value) :: members, _ =>
      obtain ⟨name, rfl⟩ := Option.isSome_iff_exists.mp (named _ List.mem_cons_self)
      cases members with
      | nil => exact ⟨_, toList_renderMember name value⟩
      | cons next members =>
          exact ⟨_, by rw [toList_renderMembers, toList_renderMember]; rfl⟩

/-- A written object is read back if its members are. -/
theorem reads_object (named : ∀ member ∈ members, member.1.isSome = true)
    (reads : ∀ member ∈ members, Reads member.2) : Reads (object members) := by
  have text : (object members).render.toList =
      '{' :: ((renderMembers members).toList ++ ['}']) := by
    simp [render]
  refine ⟨⟨'{', _, text, rfl, by decide⟩, fun fuel rest enough => ?_⟩
  rw [text] at enough ⊢
  rw [List.length_cons, List.length_append, List.length_singleton] at enough
  obtain ⟨fuel, rfl⟩ := Nat.exists_eq_add_of_le' (by omega : 1 ≤ fuel)
  by_cases bare : members = []
  · subst bare
    rfl
  · obtain ⟨begun, written⟩ := begins_renderMembers bare named
    have read := readMembers?_renderMembers bare named reads fuel rest (by omega)
    rw [written, List.cons_append] at read
    rw [List.cons_append, List.append_assoc, List.singleton_append, written, List.cons_append]
    change (readMembers? fuel ('"' :: (begun ++ '}' :: rest))).map _ = _
    rw [read]
    rfl

end Members

/-- Every value without numbers is read from its own text. -/
theorem IsPlain.reads {json : Json} (plain : json.IsPlain) : Reads json := by
  induction plain with
  | null => exact reads_null
  | boolean truth => exact reads_boolean truth
  | string text => exact reads_string text
  | array each ih => exact reads_array ih
  | object named each ih => exact reads_object named ih

/-- A value without numbers is what its text says. -/
theorem parse?_render {json : Json} (plain : json.IsPlain) : parse? json.render = some json := by
  have read := plain.reads.read (2 * json.render.toList.length + 2) [] (Nat.le_add_right _ 2)
  rw [List.append_nil] at read
  unfold parse?
  simp only [read]
  rfl

end Authorization.Json
