import RemoteAgent.Effect

/-!
# Prompters

A prompter shows status messages and answers questions. It may be registered under an identifier,
through which a client can find it again.
-/

namespace RemoteAgent

/-- Why a message was not delivered or a question not answered. -/
inductive PromptError where
  | unavailable
  | failed (text : String)
  deriving DecidableEq, Repr

def PromptError.message : PromptError → String
  | unavailable => "no interactive prompter available"
  | failed text => "prompting failed: " ++ text

/-- A prompter in a world of type `ω`. -/
structure Prompter (ω : Type) where
  identifier : Option String
  message : String → Effect ω PromptError Unit
  prompt : String → Effect ω PromptError String

namespace Prompter

/-- A prompter that shows nothing and cannot answer. -/
def silent (ω : Type) : Prompter ω where
  identifier := none
  message _ := pure ()
  prompt _ := throw .unavailable

/-- A prompter of a part of the world. -/
def within {ω ν : Type} (part : ω → ν) (replace : ω → ν → ω) (p : Prompter ν) : Prompter ω where
  identifier := p.identifier
  message text := (p.message text).within part replace
  prompt text := (p.prompt text).within part replace

end Prompter

end RemoteAgent
