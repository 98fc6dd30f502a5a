import RouteModule.Json.Node
import RouteModule.Proofs.Json.Notation

/-!
What is read where a JSON value is written: the value, but for its numbers, each of which is what is
read where it is written. The reader spends one unit of its bound on each value and each part of a
container, and each of these has a character of its own in the text.
-/

namespace RouteModule.Json

section Texts

theorem hex4?_hexPadded : ∀ n < 32, ∀ rest : Text,
    hex4? (Text.hexPadded 4 n ++ rest) = some (n, rest) := by
  intro n hn rest
  have hdigits : ∀ n < 32, Text.hexPadded 4 n = ['0', '0', Text.hexDigit (n / 16), Text.hexDigit (n % 16)] ∧
      Text.digitValue? 16 (Text.hexDigit (n / 16)) = some (n / 16) ∧
      Text.digitValue? 16 (Text.hexDigit (n % 16)) = some (n % 16) := by
    decide
  obtain ⟨hpadded, hhigh, hlow⟩ := hdigits n hn
  have hzero : Text.digitValue? 16 '0' = some 0 := by decide
  have hsum : n / 16 * 16 + n % 16 = n := by omega
  rw [hpadded]
  simp [hex4?, hzero, hhigh, hlow, hsum]

theorem readQuoted?_plain {c : Char} (hquote : c ≠ '"') (hback : c ≠ '\\') (hplain : ¬ c.toNat < 32)
    (fuel : Nat) (rest : Text) :
    readQuoted? (fuel + 1) (c :: rest) = (readQuoted? fuel rest).map (Quoted.push c) := by
  rw [readQuoted?.eq_def]
  split
  · contradiction
  · contradiction
  · next heq => exact absurd (List.cons.inj heq).1 hquote
  · next heq => exact absurd (List.cons.inj heq).1 hback
  · next heq => exact absurd (List.cons.inj heq).1 hback
  · next hfuel heq =>
    cases hfuel
    cases heq
    rw [if_neg hplain]

/-- An escaped character is read as that character. -/
theorem readQuoted?_escape (fuel : Nat) (c : Char) (rest : Text) :
    readQuoted? (fuel + 1) (escape c ++ rest) = (readQuoted? fuel rest).map (Quoted.push c) := by
  unfold escape
  split
  case h_8 _ hquote hback _ _ _ _ _ =>
    split
    · next hcontrol =>
      have hn : c.toNat < 32 := hcontrol
      have hhigh : isHigh c.toNat = false := by
        simp only [isHigh, Bool.and_eq_false_iff, decide_eq_false_iff_not]
        omega
      have hlow : isLow c.toNat = false := by
        simp only [isLow, Bool.and_eq_false_iff, decide_eq_false_iff_not]
        omega
      have hchar : Char.ofNat c.toNat = c := Char.ofNat_toNat c
      simp [readQuoted?, hex4?_hexPadded c.toNat hn rest, hhigh, hlow, hchar]
    · next hplain => exact readQuoted?_plain hquote hback hplain fuel rest
  all_goals rfl

/-- An escaped text is read up to the closing quote. -/
theorem readQuoted?_flatMap {t : Text} {fuel : Nat} (h : t.length < fuel) (rest : Text) :
    readQuoted? fuel (t.flatMap escape ++ '"' :: rest) = some (some t, rest) := by
  induction t generalizing fuel with
  | nil =>
    obtain ⟨fuel, rfl⟩ := Nat.exists_eq_succ_of_ne_zero (Nat.ne_of_gt h)
    rfl
  | cons c t ih =>
    obtain ⟨fuel, rfl⟩ := Nat.exists_eq_succ_of_ne_zero (Nat.ne_of_gt (Nat.zero_lt_of_lt h))
    rw [List.flatMap_cons, List.append_assoc, readQuoted?_escape,
      ih (Nat.lt_of_succ_lt_succ h)]
    rfl

theorem length_le_flatMap_escape (t : Text) : t.length ≤ (t.flatMap escape).length := by
  induction t with
  | nil => simp
  | cons c t ih =>
    have hne : 0 < (escape c).length := by
      unfold escape
      split
      case h_8 => split <;> simp
      all_goals simp
    rw [List.flatMap_cons, List.length_append, List.length_cons]
    omega

theorem readText_flatMap (t rest : Text) :
    readText (t.flatMap escape ++ '"' :: rest) = (.atom t (.text t), some rest) := by
  have hlength := length_le_flatMap_escape t
  have hfuel : t.length < (t.flatMap escape ++ '"' :: rest).length + 1 := by
    rw [List.length_append]
    omega
  rw [readText, readQuoted?_flatMap hfuel]

end Texts

section Values

mutual

/-- The numbers in a value, in the order of its text. -/
def numbers : Json → List Number
  | null => []
  | bool _ => []
  | number n => [n]
  | text _ => []
  | array items => numbersOfItems items
  | object members => numbersOfMembers members

/-- The numbers in items. -/
def numbersOfItems : List Json → List Number
  | [] => []
  | v :: rest => numbers v ++ numbersOfItems rest

/-- The numbers in the values of members. -/
def numbersOfMembers : List (Text × Json) → List Number
  | [] => []
  | (_, v) :: rest => numbers v ++ numbersOfMembers rest

end

mutual

/-- The node that the text of a value spells: that of the value, but with each number as it is read
where it is written. -/
def spelt : Json → Node
  | null => .atom "null".toList .null
  | bool b => .atom (if b then "true".toList else "false".toList) (.bool b)
  | number n => numberNode n.text n.reread?
  | text t => .atom t (.text t)
  | array items => .sequence (speltItems items)
  | object members => .mapping (speltMembers members)

/-- The nodes that the items of an array spell. -/
def speltItems : List Json → List Node
  | [] => []
  | v :: rest => spelt v :: speltItems rest

/-- The entries that the members of an object spell. -/
def speltMembers : List (Text × Json) → List (Node × Node)
  | [] => []
  | (name, v) :: rest => (.atom name (.text name), spelt v) :: speltMembers rest

end

mutual

theorem spelt_of_readsBack : (v : Json) → (∀ n ∈ v.numbers, n.ReadsBack) → v.spelt = v.node
  | null, _ => rfl
  | bool _, _ => rfl
  | number n, h => by
    have hn : n.reread? = some n := h n (by simp [numbers])
    rw [spelt, hn]
    rfl
  | text _, _ => rfl
  | array items, h => congrArg Node.sequence (speltItems_of_readsBack items h)
  | object members, h => congrArg Node.mapping (speltMembers_of_readsBack members h)

theorem speltItems_of_readsBack : (items : List Json) →
    (∀ n ∈ numbersOfItems items, n.ReadsBack) → speltItems items = nodes items
  | [], _ => rfl
  | v :: items, h => by
    rw [numbersOfItems, List.forall_mem_append] at h
    rw [speltItems, nodes, spelt_of_readsBack v h.1, speltItems_of_readsBack items h.2]

theorem speltMembers_of_readsBack : (members : List (Text × Json)) →
    (∀ n ∈ numbersOfMembers members, n.ReadsBack) → speltMembers members = entries members
  | [], _ => rfl
  | (name, v) :: members, h => by
    rw [numbersOfMembers, List.forall_mem_append] at h
    rw [speltMembers, entries, spelt_of_readsBack v h.1, speltMembers_of_readsBack members h.2]

end

/-- A value does not start with a blank, or with a closing bracket or brace. -/
def StartsValue (t : Text) : Prop := ∃ c r, t = c :: r ∧ isSpace c = false ∧ c ≠ ']' ∧ c ≠ '\x7d'

theorem skipSpace_cons {c : Char} (h : isSpace c = false) (t : Text) : skipSpace (c :: t) = c :: t := by
  simp [skipSpace, h]

/-- The first character of a number starts nothing else. -/
theorem ne_of_number {c d : Char} (hc : c = '-' ∨ Text.isDigit c = true)
    (hd : ¬ (d = '-' ∨ Text.isDigit d = true)) : c ≠ d := by
  rintro rfl
  exact hd hc

theorem isSpace_of_number {c : Char} (hc : c = '-' ∨ Text.isDigit c = true) :
    isSpace c = false := by
  simp only [isSpace, Bool.or_eq_false_iff, beq_eq_false_iff_ne]
  exact ⟨⟨⟨ne_of_number hc (by decide), ne_of_number hc (by decide)⟩, ne_of_number hc (by decide)⟩,
    ne_of_number hc (by decide)⟩

variable {v : Json} {rest : Text}

theorem startsValue_render (v : Json) (rest : Text) : StartsValue (v.render ++ rest) := by
  cases v with
  | null => exact ⟨'n', _, rfl, by decide⟩
  | bool b =>
    cases b with
    | true => exact ⟨'t', _, rfl, by decide⟩
    | false => exact ⟨'f', _, rfl, by decide⟩
  | number n =>
    obtain ⟨c, t, ht, hc⟩ := n.exists_head
    exact ⟨c, t ++ rest, by rw [render, ht, List.cons_append], isSpace_of_number hc,
      ne_of_number hc (by decide), ne_of_number hc (by decide)⟩
  | text t => exact ⟨'"', _, rfl, by decide⟩
  | array items => exact ⟨'[', _, rfl, by decide⟩
  | object members => exact ⟨'\x7b', _, rfl, by decide⟩

theorem render_length_pos (v : Json) : 0 < v.render.length := by
  obtain ⟨c, r, hstart, -⟩ := startsValue_render v []
  rw [List.append_nil] at hstart
  rw [hstart]
  exact Nat.succ_pos _

/-- What starts with a sign or a digit is read as a number. -/
theorem readValue_of_number {c : Char} (hc : c = '-' ∨ Text.isDigit c = true) (fuel : Nat)
    (t : Text) : readValue (fuel + 1) (c :: t) = readNumber (c :: t) := by
  rw [readValue, skipSpace_cons (isSpace_of_number hc)]
  split
  · next heq => exact absurd (List.cons.inj heq).1 (ne_of_number hc (by decide))
  · next heq => exact absurd (List.cons.inj heq).1 (ne_of_number hc (by decide))
  · next heq => exact absurd (List.cons.inj heq).1 (ne_of_number hc (by decide))
  · next heq => exact absurd (List.cons.inj heq).1 (ne_of_number hc (by decide))
  · next heq => exact absurd (List.cons.inj heq).1 (ne_of_number hc (by decide))
  · next heq => exact absurd (List.cons.inj heq).1 (ne_of_number hc (by decide))
  · next heq =>
    cases heq
    rw [if_pos hc]
  · contradiction

theorem readValue_number (n : Number) (fuel : Nat) (hrest : EndsNumber rest) :
    readValue (fuel + 1) (n.text ++ rest) = (numberNode n.text n.reread?, some rest) := by
  obtain ⟨c, t, ht, hc⟩ := n.exists_head
  rw [← n.readNumber_text hrest, ht, List.cons_append, readValue_of_number hc]

theorem readValue_text (fuel : Nat) (t : Text) (rest : Text) :
    readValue (fuel + 1) (renderText t ++ rest) = (.atom t (.text t), some rest) := by
  have hstart : renderText t ++ rest = '"' :: (t.flatMap escape ++ '"' :: rest) := by
    simp [renderText]
  rw [hstart, readValue, skipSpace_cons (by decide)]
  exact readText_flatMap t rest

theorem endsNumber_cons {c : Char} (hc : Text.isDigit c = false ∧ c ≠ '.' ∧ c ≠ 'e' ∧ c ≠ 'E')
    (t : Text) : EndsNumber (c :: t) := by
  intro d hd
  cases hd
  exact hc

/-- The first value of items is read as such, and not as the end of an empty array. -/
theorem readValue_array {fuel : Nat} {items : List Node} {t : Text} {r : Option Text}
    (ht : StartsValue t) (h : readItems fuel t = (items, r)) :
    readValue (fuel + 1) ('[' :: t) = (.sequence items, r) := by
  obtain ⟨c, s, rfl, hspace, hclose, -⟩ := ht
  rw [readValue, skipSpace_cons (by decide)]
  simp only [skipSpace_cons hspace]
  split
  · next heq => exact absurd (List.cons.inj heq).1 hclose
  · rw [h]

theorem readValue_object {fuel : Nat} {entries : List (Node × Node)} {t : Text} {r : Option Text}
    (ht : StartsValue t) (h : readEntries fuel t = (entries, r)) :
    readValue (fuel + 1) ('\x7b' :: t) = (.mapping entries, r) := by
  obtain ⟨c, s, rfl, hspace, -, hclose⟩ := ht
  rw [readValue, skipSpace_cons (by decide)]
  simp only [skipSpace_cons hspace]
  split
  · next heq => exact absurd (List.cons.inj heq).1 hclose
  · rw [h]

theorem startsItems (v : Json) (items : List Json) (rest : Text) :
    StartsValue (renderItems (v :: items) ++ rest) := by
  cases items with
  | nil =>
    rw [renderItems, List.append_assoc]
    exact startsValue_render v _
  | cons w items =>
    rw [renderItems, List.append_assoc]
    exact startsValue_render v _

theorem startsMembers (m : Text × Json) (members : List (Text × Json)) (rest : Text) :
    StartsValue (renderMembers (m :: members) ++ rest) := by
  cases members with
  | nil => exact ⟨'"', _, rfl, by decide⟩
  | cons _ _ => exact ⟨'"', _, rfl, by decide⟩

mutual

/-- A value is read where it is written, in front of what does not go on with a number. -/
theorem readValue_render : (v : Json) → (fuel : Nat) → (rest : Text) → v.render.length ≤ fuel →
    EndsNumber rest → readValue fuel (v.render ++ rest) = (v.spelt, some rest)
  | v, 0, rest, hfuel, hrest => by
    have := render_length_pos v
    omega
  | null, fuel + 1, rest, hfuel, hrest => rfl
  | bool true, fuel + 1, rest, hfuel, hrest => rfl
  | bool false, fuel + 1, rest, hfuel, hrest => rfl
  | number n, fuel + 1, rest, hfuel, hrest => readValue_number n fuel hrest
  | text t, fuel + 1, rest, hfuel, hrest => readValue_text fuel t rest
  | array [], fuel + 1, rest, hfuel, hrest => rfl
  | array (v :: items), fuel + 1, rest, hfuel, hrest => by
    have hitems := readItems_render (v :: items) (by simp) fuel rest (Nat.le_of_succ_le_succ hfuel)
    exact readValue_array (startsItems v items rest) hitems
  | object [], fuel + 1, rest, hfuel, hrest => rfl
  | object (m :: members), fuel + 1, rest, hfuel, hrest => by
    have hmembers := readEntries_render (m :: members) (by simp) fuel rest
      (Nat.le_of_succ_le_succ hfuel)
    exact readValue_object (startsMembers m members rest) hmembers

theorem readItems_render : (items : List Json) → items ≠ [] → (fuel : Nat) → (rest : Text) →
    (renderItems items).length ≤ fuel →
    readItems fuel (renderItems items ++ rest) = (speltItems items, some rest)
  | [], hne, _, _, _ => absurd rfl hne
  | [v], _, 0, rest, hfuel => by simp [renderItems] at hfuel
  | [v], _, fuel + 1, rest, hfuel => by
    have hlength : v.render.length ≤ fuel := by
      rw [renderItems, List.length_append, List.length_singleton] at hfuel
      omega
    have hv := readValue_render v fuel (']' :: rest) hlength (endsNumber_cons (by decide) rest)
    rw [renderItems, List.append_assoc, List.singleton_append, readItems, hv]
    rfl
  | v :: w :: items, _, 0, rest, hfuel => by simp [renderItems] at hfuel
  | v :: w :: items, _, fuel + 1, rest, hfuel => by
    rw [renderItems, List.length_append, List.length_cons] at hfuel
    have hv := readValue_render v fuel (',' :: (renderItems (w :: items) ++ rest)) (by omega)
      (endsNumber_cons (by decide) _)
    have hitems := readItems_render (w :: items) (by simp) fuel rest (by omega)
    rw [renderItems, List.append_assoc, List.cons_append, readItems, hv]
    simp only [skipSpace_cons (by decide : isSpace ',' = false), hitems]
    rfl

theorem readEntries_render : (members : List (Text × Json)) → members ≠ [] → (fuel : Nat) →
    (rest : Text) → (renderMembers members).length ≤ fuel →
    readEntries fuel (renderMembers members ++ rest) = (speltMembers members, some rest)
  | [], hne, _, _, _ => absurd rfl hne
  | [(name, v)], _, 0, rest, hfuel => by simp [renderMembers] at hfuel
  | [(name, v)], _, fuel + 1, rest, hfuel => by
    simp only [renderMembers, List.length_append, List.length_cons] at hfuel
    have hv := readValue_render v fuel ('\x7d' :: rest) (by omega) (endsNumber_cons (by decide) rest)
    have hname := readText_flatMap name (':' :: (v.render ++ '\x7d' :: rest))
    have htext : renderMembers [(name, v)] ++ rest =
        '"' :: (name.flatMap escape ++ '"' :: ':' :: (v.render ++ '\x7d' :: rest)) := by
      simp [renderMembers, renderText]
    rw [htext, readEntries, skipSpace_cons (by decide)]
    simp only [hname, skipSpace_cons (by decide : isSpace ':' = false), hv]
    rfl
  | (name, v) :: m :: members, _, 0, rest, hfuel => by simp [renderMembers] at hfuel
  | (name, v) :: m :: members, _, fuel + 1, rest, hfuel => by
    simp only [renderMembers, List.length_append, List.length_cons] at hfuel
    have hv := readValue_render v fuel (',' :: (renderMembers (m :: members) ++ rest)) (by omega)
      (endsNumber_cons (by decide) _)
    have hmembers := readEntries_render (m :: members) (by simp) fuel rest (by omega)
    have hname := readText_flatMap name
      (':' :: (v.render ++ ',' :: (renderMembers (m :: members) ++ rest)))
    have htext : renderMembers ((name, v) :: m :: members) ++ rest =
        '"' :: (name.flatMap escape ++ '"' :: ':' ::
          (v.render ++ ',' :: (renderMembers (m :: members) ++ rest))) := by
      simp [renderMembers, renderText]
    rw [htext, readEntries, skipSpace_cons (by decide)]
    simp only [hname, skipSpace_cons (by decide : isSpace ':' = false), hv,
      skipSpace_cons (by decide : isSpace ',' = false), hmembers]
    rfl

end

/-- The text of a value is a document with what the value spells and nothing else. -/
theorem document_render (v : Json) : document v.render = { root := v.spelt, complete := true } := by
  have hread := readValue_render v (v.render.length + 1) [] (Nat.le_succ _) (by simp [EndsNumber])
  rw [List.append_nil] at hread
  rw [document, hread]
  rfl

end Values

end RouteModule.Json
