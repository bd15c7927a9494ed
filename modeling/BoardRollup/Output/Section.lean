/-!
# Sections and lines

The parts of the output for people: headings with a rule below them, and labelled
entries whose values line up.
-/

namespace BoardRollup

/-- Lines, each with its end. -/
def unlines (lines : List String) : String := String.join (lines.map (· ++ "\n"))

namespace Section

def ruleWidth : Nat := 72

/-- The least width of a label with its colon. -/
def labelWidth : Nat := 12

def rule : String := .ofList (List.replicate ruleWidth '-')

def heading (title : String) : List String := [title, rule]

def entry (label value : String) : String :=
  let padding := labelWidth - (label.length + 1)
  label ++ ":" ++ .ofList (List.replicate padding ' ') ++ " " ++ value

end Section

@[simp] theorem unlines_nil : unlines [] = "" := rfl

end BoardRollup
