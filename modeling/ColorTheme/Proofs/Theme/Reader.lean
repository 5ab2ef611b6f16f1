import ColorTheme.Json
import ColorTheme.Text.Hex

/-!
# JSON documents read back

* `Json.read?` : a reader for documents of texts, truth values and objects.  It takes blanks
  where JSON has them, and knows all escapes but those for one half of a pair.
* `Json.readChars_quoted` : it undoes the escapes of a text.
* `Json.readValue_write` : with enough fuel, it reads what is written, wherever it stands.
* `Json.read?_write` : so a value that is written is a document of its own, and of that value only.
-/

set_option autoImplicit false

namespace ColorTheme.Json

/-! ## Reading -/

/-- The character that a letter behind a backslash stands for. -/
def unescape? : Char → Option Char
  | '"' => some '"'
  | '\\' => some '\\'
  | '/' => some '/'
  | 'b' => some '\x08'
  | 'f' => some '\x0c'
  | 'n' => some '\n'
  | 'r' => some '\r'
  | 't' => some '\t'
  | _ => none

/-- The character of the number with four hexadecimal digits.  One half of a pair is not a
character. -/
def ofCode? (a b c d : Char) : Option Char :=
  (hexDigit? a).bind fun a => (hexDigit? b).bind fun b => (hexDigit? c).bind fun c =>
    (hexDigit? d).bind fun d =>
      let code := 4096 * a + 256 * b + 16 * c + d
      if 0xd800 ≤ code ∧ code ≤ 0xdfff then none else some (Char.ofNat code)

/-- Reads the characters of a text, from behind its opening quote up to its closing one. -/
def readChars : List Char → Option (List Char × List Char)
  | [] => none
  | '"' :: rest => some ([], rest)
  | '\\' :: 'u' :: a :: b :: c :: d :: rest =>
    (ofCode? a b c d).bind fun char =>
      (readChars rest).map fun (chars, rest) => (char :: chars, rest)
  | '\\' :: letter :: rest =>
    (unescape? letter).bind fun char =>
      (readChars rest).map fun (chars, rest) => (char :: chars, rest)
  | char :: rest =>
    if char = '\\' ∨ char.toNat < 32 then none
    else (readChars rest).map fun (chars, rest) => (char :: chars, rest)

/-- What may stand between the parts of a document. -/
def isBlank (c : Char) : Bool := c == ' ' || c == '\t' || c == '\n' || c == '\r'

/-- The text behind the blanks that it begins with. -/
def skipBlanks (cs : List Char) : List Char := cs.dropWhile isBlank

mutual

/-- Reads a value.  The fuel bounds how many values and members are looked at. -/
def readValue : Nat → List Char → Option (Json × List Char)
  | 0, _ => none
  | fuel + 1, cs =>
    match skipBlanks cs with
    | '"' :: rest => (readChars rest).map fun (chars, rest) => (text (String.ofList chars), rest)
    | 't' :: 'r' :: 'u' :: 'e' :: rest => some (truth true, rest)
    | 'f' :: 'a' :: 'l' :: 's' :: 'e' :: rest => some (truth false, rest)
    | '\x7b' :: rest =>
      match skipBlanks rest with
      | '\x7d' :: rest => some (object [], rest)
      | _ => (readMembers fuel rest).map fun (members, rest) => (object members, rest)
    | _ => none

/-- Reads the members of an object up to its closing brace; there is at least one. -/
def readMembers : Nat → List Char → Option (List (String × Json) × List Char)
  | 0, _ => none
  | fuel + 1, cs =>
    match skipBlanks cs with
    | '"' :: rest =>
      (readChars rest).bind fun (key, rest) =>
        match skipBlanks rest with
        | ':' :: rest =>
          (readValue fuel rest).bind fun (value, rest) =>
            match skipBlanks rest with
            | ',' :: rest => (readMembers fuel rest).map fun (members, rest) =>
                ((String.ofList key, value) :: members, rest)
            | '\x7d' :: rest => some ([(String.ofList key, value)], rest)
            | _ => none
        | _ => none
    | _ => none

end

/-- The value of a document, if there is nothing but blanks around it. -/
def read? (document : String) : Option Json :=
  (readValue document.toList.length document.toList).bind fun (value, rest) =>
    if skipBlanks rest = [] then some value else none

/-! ## Texts -/

theorem readChars_plain {c : Char} (quote : c ≠ '"') (backslash : c ≠ '\\')
    (control : 32 ≤ c.toNat) (rest : List Char) :
    readChars (c :: rest) = (readChars rest).map fun (chars, rest) => (c :: chars, rest) := by
  rw [readChars.eq_def]
  split
  · rename_i h
    cases h
  · rename_i h
    exact absurd (List.cons.inj h).1 quote
  · rename_i h
    exact absurd (List.cons.inj h).1 backslash
  · rename_i h
    exact absurd (List.cons.inj h).1 backslash
  · rename_i h
    obtain ⟨rfl, rfl⟩ := List.cons.inj h
    rw [if_neg]
    rintro (h | h)
    · exact backslash h
    · omega

/-- The number of a control character is read from its digits. -/
theorem ofCode?_control {c : Char} (h : c.toNat < 32) :
    ofCode? '0' '0' (Nat.digitChar (c.toNat / 16)) (Nat.digitChar (c.toNat % 16)) = some c := by
  have hcode : 4096 * 0 + 256 * 0 + 16 * (c.toNat / 16) + c.toNat % 16 = c.toNat := by omega
  unfold ofCode?
  rw [hexDigit?_digitChar _ (by omega), hexDigit?_digitChar _ (by omega)]
  simp only [show hexDigit? '0' = some 0 by decide, Option.bind_some, hcode]
  rw [if_neg (by omega), Char.ofNat_toNat]

/-- A character is escaped with a letter, or with its number, or stands for itself. -/
theorem escape_cases (c : Char) :
    (∃ letter, letter ≠ 'u' ∧ unescape? letter = some c ∧ escape c = ['\\', letter]) ∨
    (c.toNat < 32 ∧ escape c =
      ['\\', 'u', '0', '0', Nat.digitChar (c.toNat / 16), Nat.digitChar (c.toNat % 16)]) ∨
    (c ≠ '"' ∧ c ≠ '\\' ∧ 32 ≤ c.toNat ∧ escape c = [c]) := by
  by_cases hletter : c = '"' ∨ c = '\\' ∨ c = '\x08' ∨ c = '\t' ∨ c = '\n' ∨ c = '\x0c' ∨ c = '\r'
  · left
    rcases hletter with rfl | rfl | rfl | rfl | rfl | rfl | rfl
    · exact ⟨'"', by decide, rfl, rfl⟩
    · exact ⟨'\\', by decide, rfl, rfl⟩
    · exact ⟨'b', by decide, rfl, rfl⟩
    · exact ⟨'t', by decide, rfl, rfl⟩
    · exact ⟨'n', by decide, rfl, rfl⟩
    · exact ⟨'f', by decide, rfl, rfl⟩
    · exact ⟨'r', by decide, rfl, rfl⟩
  · right
    simp only [not_or] at hletter
    obtain ⟨quote, backslash, h₁, h₂, h₃, h₄, h₅⟩ := hletter
    by_cases control : c.toNat < 32
    · refine .inl ⟨control, ?_⟩
      simp only [escape, quote, backslash, h₁, h₂, h₃, h₄, h₅, control, if_false, if_true]
    · have control : 32 ≤ c.toNat := Nat.not_lt.1 control
      exact .inr ⟨quote, backslash, control, escape_of_plain quote backslash control⟩

theorem readChars_letter {letter c : Char} (hu : letter ≠ 'u') (h : unescape? letter = some c)
    (rest : List Char) : readChars ('\\' :: letter :: rest) =
      (readChars rest).map fun (chars, rest) => (c :: chars, rest) := by
  rw [readChars.eq_def]
  split
  · rename_i heq
    cases heq
  · rename_i heq
    exact absurd (List.cons.inj heq).1 (by decide)
  · rename_i heq
    exact absurd (List.cons.inj (List.cons.inj heq).2).1 hu
  · rename_i heq
    obtain ⟨rfl, rfl⟩ := List.cons.inj (List.cons.inj heq).2
    rw [h, Option.bind_some]
  · rename_i hother heq
    obtain ⟨rfl, rfl⟩ := List.cons.inj heq
    exact absurd rfl (hother letter rest rfl)

/-- **A character is read from its escape.** -/
theorem readChars_escape (c : Char) (rest : List Char) :
    readChars (escape c ++ rest) =
      (readChars rest).map fun (chars, rest) => (c :: chars, rest) := by
  rcases escape_cases c with ⟨letter, hu, hletter, heq⟩ | ⟨control, heq⟩ |
    ⟨quote, backslash, control, heq⟩
  · rw [heq]
    exact readChars_letter hu hletter rest
  · rw [heq]
    simp only [List.cons_append, List.nil_append]
    rw [readChars, ofCode?_control control, Option.bind_some]
  · rw [heq, List.singleton_append, readChars_plain quote backslash control]

/-- **A text is read from between its quotes.** -/
theorem readChars_quoted (cs rest : List Char) :
    readChars (cs.flatMap escape ++ '"' :: rest) = some (cs, rest) := by
  induction cs with
  | nil => rw [List.flatMap_nil, List.nil_append, readChars]
  | cons c cs ih =>
    rw [List.flatMap_cons, List.append_assoc, readChars_escape, ih]
    rfl

/-! ## Values -/

mutual

/-- The fuel that it takes to read a value. -/
def weight : Json → Nat
  | text _ => 1
  | truth _ => 1
  | object members => 1 + weightOf members

/-- The fuel that it takes to read members. -/
def weightOf : List (String × Json) → Nat
  | [] => 0
  | (_, value) :: rest => 1 + value.weight + weightOf rest

end

theorem skipBlanks_of_isBlank {c : Char} (h : isBlank c = true) (cs : List Char) :
    skipBlanks (c :: cs) = skipBlanks cs := List.dropWhile_cons_of_pos h

theorem skipBlanks_of_not_isBlank {c : Char} (h : isBlank c = false) (cs : List Char) :
    skipBlanks (c :: cs) = c :: cs := List.dropWhile_cons_of_neg (by rw [h]; decide)

theorem skipBlanks_newLine (depth : Nat) (rest : List Char) :
    skipBlanks (newLine depth ++ rest) = skipBlanks rest := by
  rw [newLine, List.cons_append, skipBlanks_of_isBlank rfl]
  induction 2 * depth with
  | zero => rfl
  | succ n ih => rw [List.replicate_succ, List.cons_append, skipBlanks_of_isBlank rfl, ih]

/-- A member begins with its key, behind the blanks of its line. -/
theorem skipBlanks_memberLine (depth : Nat) (key : String) (written rest : List Char) :
    skipBlanks (memberLine depth key written ++ rest) =
      '"' :: (key.toList.flatMap escape ++ '"' :: ':' :: ' ' :: (written ++ rest)) := by
  unfold memberLine
  rw [List.append_assoc, List.append_assoc, skipBlanks_newLine, quoted]
  simp only [List.cons_append, List.append_assoc, List.nil_append]
  exact skipBlanks_of_not_isBlank rfl _

/-- A blank before a value is passed over. -/
theorem readValue_blank (fuel : Nat) (cs : List Char) :
    readValue fuel (' ' :: cs) = readValue fuel cs := by
  cases fuel with
  | zero => rfl
  | succ fuel => rw [readValue, readValue, skipBlanks_of_isBlank rfl]

/-- The last member ends its object. -/
theorem readMembers_last {fuel depth : Nat} {key : String} {value : Json}
    {written rest : List Char}
    (hvalue : readValue fuel (written ++ (newLine depth ++ '\x7d' :: rest)) =
      some (value, newLine depth ++ '\x7d' :: rest)) :
    readMembers (fuel + 1) (memberLine (depth + 1) key written ++
      (newLine depth ++ '\x7d' :: rest)) = some ([(key, value)], rest) := by
  rw [readMembers, skipBlanks_memberLine]
  simp only [readChars_quoted, Option.bind_some, skipBlanks_of_not_isBlank, readValue_blank, hvalue,
    skipBlanks_newLine, String.ofList_toList, show isBlank ':' = false from rfl,
    show isBlank '\x7d' = false from rfl]

/-- A comma leads on to the other members. -/
theorem readMembers_comma {fuel depth : Nat} {key : String} {value : Json}
    {written others rest : List Char} {members : List (String × Json)}
    (hvalue : readValue fuel (written ++ ',' :: others) = some (value, ',' :: others))
    (hmembers : readMembers fuel others = some (members, rest)) :
    readMembers (fuel + 1) (memberLine (depth + 1) key written ++ ',' :: others) =
      some ((key, value) :: members, rest) := by
  rw [readMembers, skipBlanks_memberLine]
  simp only [readChars_quoted, Option.bind_some, skipBlanks_of_not_isBlank, readValue_blank, hvalue,
    hmembers, Option.map_some, String.ofList_toList, show isBlank ':' = false from rfl,
    show isBlank ',' = false from rfl]

mutual

/-- **What is written is read.** -/
theorem readValue_write : ∀ (v : Json) (depth fuel : Nat) (rest : List Char), v.weight ≤ fuel →
    readValue fuel (v.write depth ++ rest) = some (v, rest)
  | text s, depth, 0, rest, h => by simp [weight] at h
  | text s, depth, fuel + 1, rest, h => by
    rw [write, quoted, readValue]
    simp only [List.cons_append, List.append_assoc, List.nil_append, skipBlanks_of_not_isBlank,
      show isBlank '"' = false from rfl, readChars_quoted, Option.map_some, String.ofList_toList]
  | truth b, depth, 0, rest, h => by simp [weight] at h
  | truth true, depth, fuel + 1, rest, h => rfl
  | truth false, depth, fuel + 1, rest, h => rfl
  | object members, depth, 0, rest, h => by
    rw [weight] at h
    omega
  | object [], depth, fuel + 1, rest, h => rfl
  | object ((key, value) :: others), depth, fuel + 1, rest, h => by
    have hmembers := readMembers_write key value others depth fuel rest (by
      rw [weight] at h
      omega)
    rw [write, readValue]
    simp only [List.cons_append, List.append_assoc, List.nil_append, skipBlanks_of_not_isBlank,
      show isBlank '\x7b' = false from rfl, skipBlanks_memberLine, hmembers, Option.map_some]
    rfl

theorem readMembers_write : ∀ (key : String) (value : Json) (others : List (String × Json))
    (depth fuel : Nat) (rest : List Char), weightOf ((key, value) :: others) ≤ fuel →
    readMembers fuel (memberLine (depth + 1) key (value.write (depth + 1)) ++
      (writeRest (depth + 1) others ++ (newLine depth ++ '\x7d' :: rest))) =
        some ((key, value) :: others, rest)
  | key, value, others, depth, 0, rest, h => by
    rw [weightOf] at h
    omega
  | key, value, [], depth, fuel + 1, rest, h => by
    rw [writeRest, List.nil_append]
    exact readMembers_last (readValue_write value (depth + 1) fuel _ (by rw [weightOf] at h; omega))
  | key, value, (next, following) :: others, depth, fuel + 1, rest, h => by
    rw [weightOf] at h
    have hmembers := readMembers_write next following others depth fuel rest (by omega)
    rw [writeRest]
    simp only [List.cons_append, List.append_assoc]
    exact readMembers_comma (readValue_write value (depth + 1) fuel _ (by omega)) hmembers

end

mutual

theorem weight_le_length : ∀ (v : Json) (depth : Nat), v.weight ≤ (v.write depth).length
  | text s, depth => by simp [weight, write, quoted]
  | truth true, depth => by simp [weight, write]
  | truth false, depth => by simp [weight, write]
  | object [], depth => by simp [weight, weightOf, write]
  | object ((key, value) :: others), depth => by
    have hvalue := weight_le_length value (depth + 1)
    have hothers := weightOf_le_length others (depth + 1)
    simp only [weight, weightOf, write, memberLine, newLine, List.length_append, List.length_cons]
    omega

/-- What is written is long enough to serve as fuel. -/
theorem weightOf_le_length : ∀ (members : List (String × Json)) (depth : Nat),
    weightOf members ≤ (writeRest depth members).length
  | [], depth => Nat.zero_le _
  | (key, value) :: others, depth => by
    have hvalue := weight_le_length value depth
    have hothers := weightOf_le_length others depth
    simp only [weightOf, writeRest, memberLine, List.length_append, List.length_cons]
    omega

end

/-- **A value is read from its document**, and no other value could be. -/
theorem read?_write (v : Json) (depth : Nat) : read? (String.ofList (v.write depth)) = some v := by
  have hread := readValue_write v depth _ [] (weight_le_length v depth)
  rw [List.append_nil] at hread
  rw [read?, String.toList_ofList, hread]
  rfl

end ColorTheme.Json
