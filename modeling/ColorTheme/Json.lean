/-!
# JSON documents

The part of JSON that themes need: texts, truth values and objects.

* `Json.ofMembers` makes an object, with its members in the order of their keys.
* `Json.pairwise_sortMembers` : the keys of such an object rise, so that none stands twice.
* `Json.document` writes a value over several lines, two blanks deeper for each object around it.
* `escape_of_plain` : only a quote, a backslash and the thirty-two controls are escaped.
-/

set_option autoImplicit false

namespace ColorTheme

/-- A JSON value. -/
inductive Json
  | text (s : String)
  | truth (b : Bool)
  | object (members : List (String × Json))
deriving Repr, Inhabited

namespace Json

/-! ## Objects -/

/-- The members with `value` under `key`, before the first greater key.  A member with the same
key is replaced. -/
def insertMember {α : Type} (key : String) (value : α) : List (String × α) → List (String × α)
  | [] => [(key, value)]
  | (k, v) :: rest =>
    if k = key then (key, value) :: rest
    else if key < k then (key, value) :: (k, v) :: rest
    else (k, v) :: insertMember key value rest

/-- The members in the order of their keys; of two with the same key the later one stays. -/
def sortMembers {α : Type} (members : List (String × α)) : List (String × α) :=
  members.foldl (fun sorted (key, value) => insertMember key value sorted) []

/-- The object with the given members. -/
def ofMembers (members : List (String × Json)) : Json := object (sortMembers members)

theorem mem_insertMember {α : Type} {key : String} {value : α} {members : List (String × α)}
    {m : String × α} (h : m ∈ insertMember key value members) :
    m = (key, value) ∨ m ∈ members := by
  induction members with
  | nil => simpa [insertMember] using h
  | cons e rest ih =>
    obtain ⟨k, v⟩ := e
    rw [insertMember] at h
    split at h
    · rcases List.mem_cons.1 h with rfl | h
      · exact .inl rfl
      · exact .inr (List.mem_cons_of_mem _ h)
    · split at h
      · exact List.mem_cons.1 h
      · rcases List.mem_cons.1 h with rfl | h
        · exact .inr (List.mem_cons_self)
        · exact (ih h).imp id (List.mem_cons_of_mem _)

theorem pairwise_insertMember {α : Type} (key : String) (value : α) {members : List (String × α)}
    (h : members.Pairwise fun a b => a.1 < b.1) :
    (insertMember key value members).Pairwise fun a b => a.1 < b.1 := by
  induction members with
  | nil => simp [insertMember]
  | cons e rest ih =>
    obtain ⟨k, v⟩ := e
    have ⟨first, others⟩ := List.pairwise_cons.1 h
    rw [insertMember]
    split
    · rename_i same
      subst same
      exact List.pairwise_cons.2 ⟨first, others⟩
    · rename_i other
      split
      · rename_i less
        refine List.pairwise_cons.2 ⟨fun m hm => ?_, h⟩
        rcases List.mem_cons.1 hm with rfl | hm
        · exact less
        · exact String.lt_trans less (first m hm)
      · rename_i notLess
        refine List.pairwise_cons.2 ⟨fun m hm => ?_, ih others⟩
        rcases mem_insertMember hm with rfl | hm
        · exact String.not_le.1 fun le =>
            other (String.le_antisymm (String.not_lt.1 notLess) le)
        · exact first m hm

theorem pairwise_sortMembers {α : Type} (members : List (String × α)) :
    (sortMembers members).Pairwise fun a b => a.1 < b.1 := by
  suffices ∀ sorted : List (String × α), (sorted.Pairwise fun a b => a.1 < b.1) →
      (members.foldl (fun sorted (key, value) => insertMember key value sorted) sorted).Pairwise
        fun a b => a.1 < b.1 from this [] List.Pairwise.nil
  induction members with
  | nil => exact fun _ h => h
  | cons m rest ih => exact fun sorted h => ih _ (pairwise_insertMember m.1 m.2 h)

/-! ## Writing -/

/-- A character inside a quoted text. -/
def escape (c : Char) : List Char :=
  if c = '"' then ['\\', '"']
  else if c = '\\' then ['\\', '\\']
  else if c = '\x08' then ['\\', 'b']
  else if c = '\t' then ['\\', 't']
  else if c = '\n' then ['\\', 'n']
  else if c = '\x0c' then ['\\', 'f']
  else if c = '\r' then ['\\', 'r']
  else if c.toNat < 32 then
    ['\\', 'u', '0', '0', Nat.digitChar (c.toNat / 16), Nat.digitChar (c.toNat % 16)]
  else [c]

theorem escape_of_plain {c : Char} (quote : c ≠ '"') (backslash : c ≠ '\\')
    (control : 32 ≤ c.toNat) : escape c = [c] := by
  have : ∀ d : Char, d.toNat < 32 → c ≠ d := fun d hd h => by subst h; omega
  simp [escape, quote, backslash, this '\x08' (by decide), this '\t' (by decide),
    this '\n' (by decide), this '\x0c' (by decide), this '\r' (by decide), Nat.not_lt.2 control]

/-- A text in quotes. -/
def quoted (s : String) : List Char := '"' :: s.toList.flatMap escape ++ ['"']

/-- The beginning of a line inside `depth` objects. -/
def newLine (depth : Nat) : List Char := '\n' :: List.replicate (2 * depth) ' '

/-- A member on a line of its own, when its value is written already. -/
def memberLine (depth : Nat) (key : String) (written : List Char) : List Char :=
  newLine depth ++ quoted key ++ ':' :: ' ' :: written

mutual

/-- A value that stands inside `depth` objects. -/
def write (depth : Nat) : Json → List Char
  | text s => quoted s
  | truth b => if b then "true".toList else "false".toList
  | object [] => ['\x7b', '\x7d']
  | object ((key, value) :: rest) =>
    '\x7b' :: memberLine (depth + 1) key (write (depth + 1) value) ++
      writeRest (depth + 1) rest ++ newLine depth ++ ['\x7d']

/-- The members after the first one. -/
def writeRest (depth : Nat) : List (String × Json) → List Char
  | [] => []
  | (key, value) :: rest =>
    ',' :: memberLine depth key (write depth value) ++ writeRest depth rest

end

/-- A value as a document of its own, which ends its last line. -/
def document (value : Json) : String := String.ofList (value.write 0 ++ ['\n'])

end Json

end ColorTheme
