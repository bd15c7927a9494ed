/-!
# Error codes

Every failure of the tool has a code for programs and a hint for people.
-/

namespace BoardRollup

inductive ErrorCode where
  | configParse
  | inputUnreadable
  | inputMalformed
  | queryRejected
  | linkedSourceMissing
  | fetchFailed
  | fetchRejected
  | internal
  deriving DecidableEq

namespace ErrorCode

def text : ErrorCode → String
  | configParse => "E1001"
  | inputUnreadable => "E2001"
  | inputMalformed => "E2002"
  | queryRejected => "E2003"
  | linkedSourceMissing => "E3001"
  | fetchFailed => "E3002"
  | fetchRejected => "E3003"
  | internal => "E9001"

def hint : ErrorCode → String
  | configParse => "Fix syntax in .tally/config.toml and retry."
  | inputUnreadable => "Check the input path, or pipe the document on stdin."
  | inputMalformed =>
    "Pass an item array, an object with `items`, or a raw query response with `data`."
  | queryRejected => "Inspect the `errors` array in the input; the query itself failed."
  | linkedSourceMissing => "Check the --linked path or the fetch.linked_items config entry."
  | fetchFailed => "Check the endpoint, network access and API token."
  | fetchRejected => "The API answered with errors; verify the token's permissions."
  | internal => "Retry once. If persistent, report a bug with logs."

theorem text_injective {a b : ErrorCode} (h : a.text = b.text) : a = b := by
  cases a <;> cases b <;> first | rfl | exact absurd h (by decide)

end ErrorCode

end BoardRollup
