import PromptAssembly.Cache

/-!
# Scripts of cache steps

A script runs steps one after the other. A step that loads says which steps run on the same cache
while it loads, and how the load ends.
-/
namespace PromptAssembly.Cache
open Prompt (Config Fragment)

inductive Step where
  | loadPrompt (key : String) (during : List Step) (result : Except String Config)
  | loadFragment (key : String) (during : List Step) (result : Except String Fragment)
  | insertPrompt (key : String) (c : Config)
  | insertFragment (key : String) (f : Fragment)
  | prompt (key : String)
  | fragment (key : String)
  | clear
  | look

inductive Answer where
  | done
  | prompt (c : Except String (Option Config))
  | fragment (f : Except String (Option Fragment))

/-- What a step answers, what the steps within answered if the loader ran, and the keys of both
shelves afterwards. -/
inductive Outcome where
  | of (answer : Answer) (during : Option (List Outcome)) (prompts fragments : List String)

def outcome (answer : Answer) (during : Option (List Outcome)) : StateM Cache Outcome := do
  let c ← get
  return .of answer during (c.keys promptSlot) (c.keys fragmentSlot)

/-- Loads run `within` and leave its outcomes behind. -/
def loadWithin {α : Type} (slot : Slot α) (key : String) (within : StateM Cache (List Outcome))
    (result : Except String α) : StateM Cache (Except String α × Option (List Outcome)) := do
  let load : StateT (Option (List Outcome)) (StateM Cache) (Except String α) := do
    set (some (← within))
    return result
  (getOrLoad slot key load).run none

mutual

def Step.run : Step → StateM Cache Outcome
  | .loadPrompt key during result => do
    let (result, outcomes) ← loadWithin promptSlot key (runSteps during) result
    outcome (.prompt (result.map some)) outcomes
  | .loadFragment key during result => do
    let (result, outcomes) ← loadWithin fragmentSlot key (runSteps during) result
    outcome (.fragment (result.map some)) outcomes
  | .insertPrompt key c => do
    modify (·.insert promptSlot key c)
    outcome .done none
  | .insertFragment key f => do
    modify (·.insert fragmentSlot key f)
    outcome .done none
  | .prompt key => do outcome (.prompt (.ok ((← get).find? promptSlot key))) none
  | .fragment key => do outcome (.fragment (.ok ((← get).find? fragmentSlot key))) none
  | .clear => do
    modify Cache.clear
    outcome .done none
  | .look => outcome .done none

def runSteps : List Step → StateM Cache (List Outcome)
  | [] => return []
  | s :: ss => do return (← s.run) :: (← runSteps ss)

end

end PromptAssembly.Cache
