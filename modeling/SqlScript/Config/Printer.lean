import SqlScript.Config.Field
import SqlScript.Json

/-!
# Writing a configuration

A configuration as a JSON object with all its fields.
-/

namespace SqlScript

def SplitMode.toJson : SplitMode → Json
  | .scan => .object [(kindKey, .string Kind.scan.word)]
  | .delimiter character =>
      .object [(kindKey, .string Kind.delimiter.word), (delimiterKey, .string character.toString)]

namespace Config

def strings (texts : List String) : Json := .array (texts.map .string)

/-- The value of one field. -/
def fieldJson (c : Config) : Field → Json
  | .excludedPrefixes => strings c.excludedPrefixes
  | .maxAttempts => .nat c.maxAttempts.toNat
  | .reconnectAttempts => .nat c.reconnectAttempts.toNat
  | .archiveRoot => .string c.archiveRoot.text
  | .archiveFailures => .bool c.archiveFailures
  | .archiveMode => .string c.archiveMode.word
  | .reapplyFilterOnRetry => .bool c.reapplyFilterOnRetry
  | .splitMode => c.splitMode.toJson
  | .stripPatterns => strings c.stripPatterns

def toJson (c : Config) : Json :=
  .object (Field.all.map fun field => (field.key, c.fieldJson field))

end Config

end SqlScript
