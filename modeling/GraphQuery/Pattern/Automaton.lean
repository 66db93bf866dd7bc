/-
# Automata of patterns

An automaton is a row of states and the state at which it is entered.  A state accepts, reads a
character of a class, checks an assertion, or forks.

A pattern is put in front of an automaton (`prepend`): the result first matches the pattern and then
goes on as before.  A counted repetition puts its pattern in front of itself as often as it is
counted.  An unbounded one ends in a fork that leads back into the last copy of its pattern and past
it, so a copy more is needed only if none is counted.  The states are fewer than the bytes that the
pattern is charged for (`Pattern.space`), and the bound on those keeps automata small.
-/
import GraphQuery.Pattern.Basic

namespace GraphQuery

/-! ## 1. States -/

/-- A state of an automaton: what it asks for, and the states that it leads to. -/
inductive Automaton.State where
  | accept
  | read (ranges : CharRanges) (next : Nat)
  | check (place : Place) (next : Nat)
  | fork (first second : Nat)
  deriving Repr

/-- States, and the one at which they are entered. -/
structure Automaton where
  states : Array Automaton.State
  entry : Nat
  deriving Repr

namespace Automaton

/-- The automaton that accepts at once. -/
def accepting : Automaton := ⟨#[.accept], 0⟩

/-- A state in front of an automaton. -/
def before (state : Nat → State) : Automaton → Automaton
  | ⟨states, entry⟩ =>
    let here := states.size
    ⟨states.push (state entry), here⟩

/-- The automaton may be passed over to the state `past`. -/
def orPast (past : Nat) (a : Automaton) : Automaton := a.before fun entry => .fork entry past

/-- What `front` puts in front of an automaton, as often as one likes: it leads to a fork, which
leads back to it and past it.  If it may be `skipped`, the fork comes first. -/
def loop (skipped : Bool) (front : Automaton → Automaton) : Automaton → Automaton
  | ⟨states, past⟩ =>
    let here := states.size
    match front ⟨states.push (.fork past past), here⟩ with
    | ⟨states, entry⟩ =>
      ⟨states.setIfInBounds here (.fork entry past), if skipped then here else entry⟩

/-! ## 2. The automaton of a pattern -/

mutual
/-- The automaton that matches a pattern and then goes on as `a` does. -/
def prepend : Pattern → Automaton → Automaton
  | .empty, a => a
  | .char c, a => a.before (.read [CharRanges.single c])
  | .cls ranges, a => a.before (.read ranges)
  | .place p, a => a.before (.check p)
  | .repeated sub least none, a =>
    Nat.repeat (fun a => prepend sub a) (least - 1)
      (loop (least == 0) (fun a => prepend sub a) a)
  | .repeated sub least (some most), a =>
    let past := a.entry
    Nat.repeat (fun a => prepend sub a) least
      (Nat.repeat (fun a => orPast past (prepend sub a)) (most - least) a)
  | .group _ _ sub, a => prepend sub a
  | .row subs, a => prependAll subs a
  | .choice subs, ⟨states, past⟩ => prependAny subs past states
/-- The automaton that matches several patterns in a row and then goes on as `a` does. -/
def prependAll : List Pattern → Automaton → Automaton
  | [], a => a
  | p :: rest, a => prepend p (prependAll rest a)
/-- The automaton that matches one of several patterns and then goes on at the state `past`. -/
def prependAny : List Pattern → Nat → Array State → Automaton
  | [], past, states => before (.read []) ⟨states, past⟩
  | [p], past, states => prepend p ⟨states, past⟩
  | p :: rest, past, states =>
    match prependAny rest past states with
    | ⟨states, other⟩ => orPast other (prepend p ⟨states, past⟩)
end

/-- The automaton of a pattern. -/
def ofPattern (p : Pattern) : Automaton := prepend p accepting

end Automaton

end GraphQuery
