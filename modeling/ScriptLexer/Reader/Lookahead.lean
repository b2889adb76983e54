/-
# Sequences with two items in view

A reader takes the characters of a text one after the other, and may look at the next two of them
before it takes them.  How a sequence keeps what was looked at is left open here: a `Lookahead` is
whatever shows the next two items without taking them, and gives out all items in their order.

A queue of the items already fetched is one way to do it (`Lookahead.queue`).
-/

namespace ScriptLexer

/-- A way to take a sequence item by item, with the next two items in view. -/
structure Lookahead (α : Type) where
  /-- What is kept of a sequence, items already looked at included. -/
  State : Type
  /-- The items that are not yet taken, in their order. -/
  ahead : State → List α
  /-- A sequence of which nothing is taken and nothing looked at. -/
  ofList : List α → State
  /-- Shows the next item. -/
  peek : State → Option α × State
  /-- Shows the item behind the next one. -/
  peekSecond : State → Option α × State
  /-- Takes the next item. -/
  next : State → Option α × State
  /-- At first no item is taken. -/
  ahead_ofList : ∀ xs, ahead (ofList xs) = xs
  /-- The item shown is the next one. -/
  peek_fst : ∀ s, (peek s).1 = (ahead s).head?
  /-- Nothing is taken by showing it. -/
  ahead_peek : ∀ s, ahead (peek s).2 = ahead s
  /-- The item shown is the one behind the next. -/
  peekSecond_fst : ∀ s, (peekSecond s).1 = (ahead s)[1]?
  /-- Nothing is taken by showing it. -/
  ahead_peekSecond : ∀ s, ahead (peekSecond s).2 = ahead s
  /-- The item taken is the next one. -/
  next_fst : ∀ s, (next s).1 = (ahead s).head?
  /-- What is taken is gone, and nothing else. -/
  ahead_next : ∀ s, ahead (next s).2 = (ahead s).tail

/-! ## A queue of fetched items -/

/-- A sequence of which the first items are fetched. -/
structure Queue (α : Type) where
  /-- The items that are fetched and not yet taken. -/
  fetched : List α
  /-- The items behind them. -/
  unread : List α

namespace Queue

variable {α : Type}

/-- The items that are not yet taken. -/
def ahead (q : Queue α) : List α := q.fetched ++ q.unread

/-- Fetches items until there are `n`, or as many as are left. -/
def fetch (q : Queue α) (n : Nat) : Queue α :=
  let missing := n - q.fetched.length
  ⟨q.fetched ++ q.unread.take missing, q.unread.drop missing⟩

/-- Shows the item with the number `i`, for which it has to be fetched. -/
def look (q : Queue α) (i : Nat) : Option α × Queue α :=
  let q' := q.fetch (i + 1)
  (q'.fetched[i]?, q')

/-- Takes the next item, out of the queue if there is one in it. -/
def next : Queue α → Option α × Queue α
  | ⟨x :: fetched, unread⟩ => (some x, ⟨fetched, unread⟩)
  | ⟨[], x :: unread⟩ => (some x, ⟨[], unread⟩)
  | ⟨[], []⟩ => (none, ⟨[], []⟩)

theorem ahead_fetch (q : Queue α) (n : Nat) : (q.fetch n).ahead = q.ahead := by
  rw [ahead, fetch, List.append_assoc, List.take_append_drop]
  rfl

/-- What is fetched can be seen, and what is beyond the end cannot. -/
theorem look_fst (q : Queue α) (i : Nat) : (q.look i).1 = q.ahead[i]? := by
  show (q.fetched ++ q.unread.take (i + 1 - q.fetched.length))[i]? = (q.fetched ++ q.unread)[i]?
  rcases Nat.lt_or_ge i q.fetched.length with hlt | hge
  · rw [List.getElem?_append_left hlt, List.getElem?_append_left hlt]
  · rw [List.getElem?_append_right hge, List.getElem?_append_right hge,
      List.getElem?_take_of_lt (by omega)]

end Queue

/-- Items are fetched as far as they are looked at, and kept until they are taken. -/
def Lookahead.queue (α : Type) : Lookahead α where
  State := Queue α
  ahead := Queue.ahead
  ofList xs := ⟨[], xs⟩
  peek q := q.look 0
  peekSecond q := q.look 1
  next := Queue.next
  ahead_ofList _ := rfl
  peek_fst q := by rw [Queue.look_fst, List.head?_eq_getElem?]
  ahead_peek q := q.ahead_fetch 1
  peekSecond_fst q := q.look_fst 1
  ahead_peekSecond q := q.ahead_fetch 2
  next_fst := by rintro ⟨_ | _, _ | _⟩ <;> rfl
  ahead_next := by rintro ⟨_ | _, _ | _⟩ <;> rfl

end ScriptLexer
