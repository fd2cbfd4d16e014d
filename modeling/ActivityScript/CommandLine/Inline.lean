/-!
# Scripts on the command line

The words of a command line form a script of one line: the first word stands as it is, every later
word is quoted, unless it already has a quotation mark.
-/

namespace ActivityScript.CommandLine

/-- A later word of the script. -/
def inlineWord (word : String) : String :=
  if word.toList.contains '\x22' then word else "\"" ++ word ++ "\""

/-- The script of a list of words. -/
def inlineScript : List String → String
  | [] => ""
  | first :: rest => " ".intercalate (first :: rest.map inlineWord)

end ActivityScript.CommandLine
