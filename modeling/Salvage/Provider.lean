import Salvage.Outcome

/-!
# Providers

A provider of a service answers calls one after another. Its future is the list of its answers: each
is a reply or the text of a failure, and when the list has come to its end every further call fails.
What was asked of it is kept in order.
-/

namespace Salvage

/-- A provider that takes calls of type `κ` and gives replies of type `ρ`. -/
structure Provider (κ ρ : Type) where
  answers : List (Except String ρ)
  /-- The text of the failure of a call that nobody answers. -/
  silence : String
  /-- The calls made so far. -/
  calls : List κ

namespace Provider

variable {κ ρ : Type}

/-- Calls a provider. The text of a failure is made an error by `wrap`. -/
def call (wrap : String → Error) (c : κ) : Action (Provider κ ρ) ρ := fun p =>
  let p := { p with calls := p.calls ++ [c] }
  match p.answers with
  | [] => (.failed (wrap p.silence), p)
  | .error text :: rest => (.failed (wrap text), { p with answers := rest })
  | .ok reply :: rest => (.done reply, { p with answers := rest })

/-- Fails without making a call, the way a call fails that the provider never sees. -/
def refuse {α : Type} (wrap : String → Error) : Action (Provider κ ρ) α := fun p =>
  (.failed (wrap p.silence), p)

end Provider

end Salvage
