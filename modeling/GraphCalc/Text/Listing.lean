/-!
# Listings of several errors

Errors that are collected before they are shown appear as one text: a count
and one indented bullet per error, closed by an empty line.
-/

namespace GraphCalc.Text

/-- The heading over `count` collected errors. -/
def listingHeading (count : Nat) : String :=
  if count = 1 then "1 error occurred:" else s!"{count} errors occurred:"

/-- Several error texts as one. -/
def listing (texts : List String) : String :=
  listingHeading texts.length ++
    String.join (texts.map fun text => "\n\t* " ++ text) ++ "\n\n"

end GraphCalc.Text
