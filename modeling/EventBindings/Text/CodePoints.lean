namespace EventBindings.Text

/-!
Sets of characters given by ranges of code points, and the width of text in
bytes of UTF-8.
-/

/-- Ranges of code points, each with its first and its last member. -/
abbrev CodePointRanges := List (Nat × Nat)

def CodePointRanges.holds (ranges : CodePointRanges) (c : Char) : Bool :=
  ranges.any fun (first, last) => first ≤ c.toNat && c.toNat ≤ last

/-- The number of bytes that a text takes in UTF-8. Every offset in this
library is the byte length of the text before a place. -/
def byteLength : List Char → Nat
  | [] => 0
  | c :: rest => c.utf8Size + byteLength rest

@[simp] theorem byteLength_nil : byteLength [] = 0 := rfl

@[simp] theorem byteLength_cons (c : Char) (text : List Char) :
    byteLength (c :: text) = c.utf8Size + byteLength text := rfl

theorem byteLength_space (text : List Char) : byteLength (' ' :: text) = 1 + byteLength text := rfl

@[simp] theorem byteLength_append (left right : List Char) :
    byteLength (left ++ right) = byteLength left + byteLength right := by
  induction left with
  | nil => simp
  | cons c left ih => simp [ih, Nat.add_assoc]

end EventBindings.Text
