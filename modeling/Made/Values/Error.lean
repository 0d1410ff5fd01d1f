import Made.Library.Outcome

/-!
# Domain errors

The typed refusals of the core domain, with the texts the engine puts into them.  A refusal names
the rule that was broken; it never carries state.
-/

namespace Made

inductive CeremonyLifecyclePhase where
  | running
  | paused
  | ended
deriving DecidableEq, Repr

/-- The errors that the modelled part of the core domain raises.  The numbers of `outOfRange` are
counts and durations, which the source carries as floating point. -/
inductive DomainError where
  | lifecycleRefused (operation : String) (phase : CeremonyLifecyclePhase)
  | emptyField (field : String)
  | fieldTooLong (field : String) (actual max : Nat)
  | invalidCharacters (field : String)
  | outOfRange (field : String) (value min max : Int)
  | mustBeNonZero (field : String)
  | emptyCollection (field : String)
  | invalidTransition (from_ to_ : String)
  | invariantViolated (reason : String)
  | notFound (what : String)
  | invalidDocument (reason : String)
  | alreadyExists (what : String)
  | conflict (what : String)
  | unreadableCeremonyEvent (eventType : String) (version : Nat) (reason : String)
deriving DecidableEq, Repr

/-- What a routine of the core domain returns: an answer, a domain error or a panic. -/
abbrev Result (α : Type) := Outcome DomainError α

end Made
