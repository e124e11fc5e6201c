import AgentBack.Base.Json
import AgentBack.Mail.Routing.Theme

/-!
# JSON text for PostgreSQL (`agent_pochta/db/message_filters.py`)

The payload of a letter is stored as the text of `json.dumps(..., ensure_ascii=False)`. PostgreSQL
refuses NUL in it, so NUL is taken out of the text, by the program before it writes and by the
database before it casts.
-/

namespace AgentBack.Mail.PgJson

/-- `value.replace("\\u0000", "")`. -/
def eraseNulEscape : List Char → List Char
  | '\\' :: 'u' :: '0' :: '0' :: '0' :: '0' :: rest => eraseNulEscape rest
  | c :: rest => c :: eraseNulEscape rest
  | [] => []

def sanitizeJsonTextForPg (value : List Char) : List Char :=
  if value = [] then value
  else eraseNulEscape (value.filter fun c => decide (c ≠ '\x00'))

/-- The regular expression `\\u0000` at the front: a backslash, then `u0000`. -/
def nulEscape : List Char → Option (List Char)
  | '\\' :: 'u' :: '0' :: '0' :: '0' :: '0' :: rest => some rest
  | _ => none

/-- `safe_payload_jsonb`, where `castJsonb` is the cast of a text to `jsonb`. -/
def safePayloadJsonb {α : Type} (castJsonb : List Char → α) (rawPayload : List Char) : α :=
  -- `regexp_replace(raw_payload, '\\u0000', '', 'g')`
  castJsonb (Routing.removeAll nulEscape rawPayload.length rawPayload)

end AgentBack.Mail.PgJson
