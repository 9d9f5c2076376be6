import ChunkStore.Failure

/-!
# Texts at the C boundary

A caller hands texts over as bytes up to the first null byte, and gets texts back that end the same
way.  So a text with a null character in it cannot be handed out, and messages show such a character
as `\0`.
-/

set_option autoImplicit false

namespace ChunkStore.Boundary

/-- A text argument: a null pointer, or the bytes that it points to. -/
abbrev RawText : Type :=
  Option (List UInt8)

/-- The text of an argument. -/
def readText (name : String) (raw : RawText) : Except Failure String :=
  match raw with
  | none => .error (.invalidArgument (name ++ " is null"))
  | some bytes =>
    match String.fromUTF8? ⟨(bytes.takeWhile (· ≠ 0)).toArray⟩ with
    | some text => .ok text
    | none => .error (.invalidArgument (name ++ " is not valid UTF-8"))

/-- A text to be handed out. -/
def writeText (name text : String) : Except Failure String :=
  if text.toList.contains '\x00' then .error (.query (name ++ " contains a NUL byte")) else .ok text

/-- The message of a failure as it is handed out. -/
def errorText (failure : Failure) : String :=
  String.ofList (failure.message.toList.flatMap fun c => if c = '\x00' then ['\\', '0'] else [c])

end ChunkStore.Boundary
