/-
# Searching texts for a pattern

The automaton of a pattern goes once over the text.  At each place it may begin anew, so it finds a
match wherever one starts, and it is in a set of states at once: those that can be reached without
reading a character (`spread`).

* A state is entered at most once at a place.  This ends the search among states that lead back to
  each other, and it keeps the work at a place below the number of states, however repetitions stand
  inside repetitions.
* Assertions are decided by the characters on both sides of the place.
-/
import GraphQuery.Pattern.Automaton

namespace GraphQuery

/-! ## 1. Assertions on a place -/

namespace Place

/-- The character counts as part of a word. -/
def isWord (c : Option Char) : Bool :=
  match c with
  | some c => CharRanges.word.contains c
  | none => false

/-- The assertion holds between the character before the place and the one after it. -/
def holds (p : Place) (before after : Option Char) : Bool :=
  match p with
  | textStart => before.isNone
  | textEnd => after.isNone
  | lineStart => before.isNone || before == some '\n'
  | lineEnd => after.isNone || after == some '\n'
  | crlfLineStart =>
    before.isNone || before == some '\n' || (before == some '\r' && after != some '\n')
  | crlfLineEnd =>
    after.isNone || after == some '\r' || (after == some '\n' && before != some '\r')
  | wordBoundary => isWord before != isWord after
  | noWordBoundary => isWord before == isWord after
  | wordStart => !isWord before && isWord after
  | wordEnd => isWord before && !isWord after
  | wordStartHalf => !isWord before
  | wordEndHalf => !isWord after

end Place

namespace Automaton

/-! ## 2. The states at a place -/

/-- What is reached at a place: the states entered so far, the classes that wait for a character,
each with the state that it leads to, and whether the automaton accepts. -/
structure Front where
  entered : Array Bool
  readers : List (CharRanges × Nat) := []
  accepted : Bool := false

/-- The number of states not entered yet. -/
def Front.fresh (front : Front) : Nat := front.entered.countP (!·)

/-- Entering a state leaves fewer of them fresh. -/
theorem countP_not_set_lt {entered : Array Bool} {s : Nat} (h : s < entered.size)
    (hs : ¬ entered[s] = true) :
    (entered.set s true).countP (!·) < entered.countP (!·) := by
  have hpos : 0 < entered.countP (!·) :=
    Array.countP_pos_iff.2 ⟨entered[s], Array.getElem_mem h, by simpa using hs⟩
  rw [Array.countP_set h]
  simp only [hs, Bool.not_false, if_true, Bool.not_true, Bool.false_eq_true, if_false]
  exact Nat.sub_lt hpos Nat.one_pos

/-- What is reached from the states `todo` without reading a character, if assertions are decided by
`holds`.  Once a state accepts, the rest does not matter. -/
def spread (states : Array State) (holds : Place → Bool) : List Nat → Front → Front
  | [], front => front
  | s :: todo, ⟨entered, readers, accepted⟩ =>
    if h : s < entered.size then
      if hs : entered[s] = true then spread states holds todo ⟨entered, readers, accepted⟩
      else
        have := countP_not_set_lt h hs
        let entered' := entered.set s true
        match states[s]? with
        | none => spread states holds todo ⟨entered', readers, accepted⟩
        | some .accept => ⟨entered', readers, true⟩
        | some (.read ranges next) =>
          spread states holds todo ⟨entered', (ranges, next) :: readers, accepted⟩
        | some (.check p next) =>
          spread states holds (if holds p then next :: todo else todo)
            ⟨entered', readers, accepted⟩
        | some (.fork a b) => spread states holds (a :: b :: todo) ⟨entered', readers, accepted⟩
    else spread states holds todo ⟨entered, readers, accepted⟩
termination_by todo front => (front.fresh, todo.length)

/-- What is reached at a place from its beginning states, nothing being entered yet. -/
def frontAt (a : Automaton) (before after : Option Char) (begin : List Nat) : Front :=
  spread a.states (fun p => p.holds before after) begin
    { entered := Array.replicate a.states.size false }

/-! ## 3. The search -/

/-- The automaton accepts at this place or at a later one.  Before the text stands `before`, and
`led` are the states that reading this character led to. -/
def finds (a : Automaton) (before : Option Char) (led : List Nat) : List Char → Bool
  | [] => (a.frontAt before none (a.entry :: led)).accepted
  | c :: rest =>
    let front := a.frontAt before (some c) (a.entry :: led)
    front.accepted || a.finds (some c)
      (front.readers.filterMap fun (ranges, next) =>
        if ranges.contains c then some next else none) rest

end Automaton

/-- The text holds a match. -/
def Pattern.isMatch (p : Pattern) (text : String) : Bool :=
  (Automaton.ofPattern p).finds none [] text.toList

end GraphQuery
