set_option autoImplicit false

/-!
# Totals

The sum of a size over the items of a list. Bounds on the steps of a machine are such sums.
-/

namespace PollSocket

/-- Sum of a size over the items of a list. -/
def total {α : Type} (size : α → Nat) : List α → Nat
  | [] => 0
  | a :: more => size a + total size more

variable {α β : Type}

@[simp]
theorem total_nil (size : α → Nat) : total size [] = 0 := rfl

@[simp]
theorem total_cons (size : α → Nat) (a : α) (more : List α) :
    total size (a :: more) = size a + total size more := rfl

@[simp]
theorem total_append (size : α → Nat) (xs ys : List α) :
    total size (xs ++ ys) = total size xs + total size ys := by
  induction xs with
  | nil => simp only [List.nil_append, total_nil, Nat.zero_add]
  | cons a more ih => simp only [List.cons_append, total_cons, ih, Nat.add_assoc]

theorem total_map (size : β → Nat) (f : α → β) (xs : List α) :
    total size (xs.map f) = total (fun a => size (f a)) xs := by
  induction xs with
  | nil => rfl
  | cons a more ih => simp only [List.map_cons, total_cons, ih]

end PollSocket
