/-!
# Texts by lines

Sources of templates are given line by line. A line stands as it is, so a long one is not broken.
-/

namespace LocaleScript.Template

/-- The text of these lines, each ended by a newline. -/
def lines (ls : List String) : String :=
  String.join (ls.map (· ++ "\n"))

end LocaleScript.Template
