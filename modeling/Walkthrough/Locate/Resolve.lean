import Walkthrough.Locate.Control

/-!
From a description to the one element it means. At each level all strategies are tried in their order.
The levels are the scope and its ancestors, from the inside out, and then the whole page, which is
searched again after each delay.
-/
namespace Walkthrough

/-- A page and the delays before each search of the whole page, in seconds. -/
structure Locator (σ η ν : Type) where
  page : Page σ η ν
  delays : List Float := []

namespace Locator

open Session

variable {σ η ν : Type} (locator : Locator σ η ν)

def attempts : List Float := if locator.delays.isEmpty then [0] else locator.delays

def firstControl : List η → SessionM σ ν (Option η)
  | [] => return none
  | label :: later => do
    match ← associatedControl locator.page label with
    | some control => return some control
    | none => firstControl later

/-- What a strategy yields for the description. A label stands for its control. -/
def hit (strategy : Strategy) (query : String) (within : Option η) : SessionM σ ν (Option η) := do
  if (XPath.of? strategy query within.isSome).isNone then return none
  else if strategy.isLabel then
    firstControl locator (← findAll locator.page strategy query within)
  else find locator.page strategy query within

def firstHit (query : String) (within : Option η) : List Strategy → SessionM σ ν (Option η)
  | [] => return none
  | strategy :: later => do
    match ← hit locator strategy query within with
    | some element =>
      note (.located query strategy)
      return some element
    | none => firstHit query within later

def search (query : String) (within : Option η) : SessionM σ ν (Option η) :=
  firstHit locator query within Strategy.precedence

def searchUp (query : String) : Option η → (levels : Nat) → SessionM σ ν (Option η)
  | none, _ | some _, 0 => return none
  | some anchor, levels + 1 => do
    match ← search locator query (some anchor) with
    | some element => return some element
    | none => searchUp query (← parent locator.page anchor) levels

def searchPage (query : String) : List Float → SessionM σ ν (Option η)
  | [] => return none
  | delay :: later => do
    if 0 < delay then
      note (.waiting delay query)
      pause locator.page delay
    match ← search locator query none with
    | some element => return some element
    | none => searchPage query later

def resolve (query : String) (scope : Option η) : SessionM σ ν η := do
  if (Text.compact query.toList).isEmpty then throw (.failure (.notLocated query))
  let levels := locator.page.levels (← get).page
  if let some element ← searchUp locator query scope levels then return element
  if let some element ← searchPage locator query locator.attempts then return element
  throw (.failure (.notLocated query))

end Locator
end Walkthrough
