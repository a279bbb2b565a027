/-!
# Capabilities

What the element of a component may contain: instructions, raw elements, text and child views. A
capability is honoured by a hook, an operation that the class of the component provides.
-/

namespace ViewMarkup

/-- How many child views a component takes. -/
inductive AppendPolicy where
  | none
  | single
  | multi
deriving DecidableEq, Repr

/-- The word for a policy. -/
def AppendPolicy.name : AppendPolicy → String
  | .none => "none"
  | .single => "single"
  | .multi => "multi"

/-- What an element may contain. -/
structure Capabilities where
  instruction : Bool := false
  raw : Bool := false
  text : Bool := false
  append : AppendPolicy := .none
deriving DecidableEq, Repr

/-- The operations through which a component receives what its element contains. -/
inductive Hook where
  | instruction
  | raw
  | text
  | append
deriving DecidableEq, Repr

/-- The name of the operation. -/
def Hook.name : Hook → String
  | .instruction => "process_markup_instruction"
  | .raw => "process_markup_element"
  | .text => "process_markup_text"
  | .append => "append_markup_element_view"

/-- The name of the capability that calls for the operation. -/
def Hook.capability : Hook → String
  | .instruction => "supports_instruction"
  | .raw => "supports_raw_element"
  | .text => "accepts_text"
  | .append => "append_policy"

/-- Whether the capabilities call for a hook. -/
def Capabilities.uses (c : Capabilities) : Hook → Bool
  | .instruction => c.instruction
  | .raw => c.raw
  | .text => c.text
  | .append => c.append ≠ .none

end ViewMarkup
