/-!
# Depth-first work on a stack

A worklist pops one item at a time. Visiting an item may yield a result and puts further items on
the stack in its place, the first of them on top. `pops` lists the items that are popped, `run`
collects what they yield and `first?` stops at the first yield. All three pop at most as often as
they are told to; a caller that knows how many items there are passes that number and thereby
sees the whole work.
-/

namespace AccessBridge.Worklist

variable {α β : Type}

/-- The items popped from a stack, in order, up to a number of pops. -/
def pops (visit : α → Option β × List α) : Nat → List α → List α
  | 0, _ => []
  | _ + 1, [] => []
  | n + 1, a :: stack => a :: pops visit n ((visit a).2 ++ stack)

/-- What is left on the stack after a number of pops. -/
def remaining (visit : α → Option β × List α) : Nat → List α → List α
  | 0, stack => stack
  | _ + 1, [] => []
  | n + 1, a :: stack => remaining visit n ((visit a).2 ++ stack)

/-- What the popped items yield, in order. -/
def run (visit : α → Option β × List α) : Nat → List α → List β
  | 0, _ => []
  | _ + 1, [] => []
  | n + 1, a :: stack =>
    match visit a with
    | (some b, more) => b :: run visit n (more ++ stack)
    | (none, more) => run visit n (more ++ stack)

/-- The first yield, with no pops after it. -/
def first? (visit : α → Option β × List α) : Nat → List α → Option β
  | 0, _ => none
  | _ + 1, [] => none
  | n + 1, a :: stack =>
    match visit a with
    | (some b, _) => some b
    | (none, more) => first? visit n (more ++ stack)

variable {visit : α → Option β × List α}

@[simp] theorem pops_nil (n : Nat) : pops visit n [] = [] := by
  cases n <;> rfl

/-- The yields are those of the popped items. -/
theorem run_eq_filterMap_pops (n : Nat) (stack : List α) :
    run visit n stack = (pops visit n stack).filterMap fun a => (visit a).1 := by
  induction n generalizing stack with
  | zero => rfl
  | succ n ih =>
    cases stack with
    | nil => rfl
    | cons a stack =>
      rcases h : visit a with ⟨_ | b, more⟩ <;> simp [run, pops, h, ih]

/-- Stopping at the first yield gives the head of all yields. -/
theorem first?_eq_head?_run (n : Nat) (stack : List α) :
    first? visit n stack = (run visit n stack).head? := by
  induction n generalizing stack with
  | zero => rfl
  | succ n ih =>
    cases stack with
    | nil => rfl
    | cons a stack =>
      rcases h : visit a with ⟨_ | b, more⟩
      · simp [run, first?, h, ih]
      · simp [run, first?, h]

end AccessBridge.Worklist
