import MoveDesk.Context
import MoveDesk.Settings.Basic
import MoveDesk.Text.Utf8

/-!
# Transcripts

A transcript is what a command or a session puts out: texts in order, each with the context at the
time when it is written, and how it ended. A writer that has room for so many bytes only ends it at
the first text that does not fit.
-/

namespace MoveDesk

/-- A text as it is written, and the context at that time. -/
structure Beat where
  /-- The text. -/
  text : String
  /-- The context. -/
  context : Context
deriving DecidableEq, Repr

/-- What is put out, and how it ended. -/
structure Transcript where
  /-- The texts, in order. -/
  beats : List Beat
  /-- The context at the end. -/
  context : Context
  /-- Why it broke off, if it did. -/
  failure : Option CommandError := none
deriving DecidableEq, Repr

namespace Transcript

/-- One text, and nothing behind it. -/
def single (text : String) (context : Context) : Transcript where
  beats := [⟨text, context⟩]
  context

/-- Nothing but a failure. -/
def broken (error : CommandError) (context : Context) : Transcript where
  beats := []
  context
  failure := some error

/-- The transcript behind a text. -/
def after (text : String) (context : Context) (transcript : Transcript) : Transcript :=
  { transcript with beats := ⟨text, context⟩ :: transcript.beats }

/-- All that is put out. -/
def text (transcript : Transcript) : String := String.join (transcript.beats.map (·.text))

theorem text_after (text : String) (context : Context) (transcript : Transcript) :
    (transcript.after text context).text = text ++ transcript.text := by
  simp [after, Transcript.text, String.join_cons]

/-- What a writer took. -/
structure Delivery where
  /-- The bytes that it took. -/
  written : Bytes
  /-- The context at the end. -/
  context : Context
  /-- Why it broke off, if it did. -/
  failure : Option CommandError
deriving DecidableEq, Repr

/-- The delivery to a writer that takes everything. -/
def delivered (transcript : Transcript) : Delivery where
  written := Text.encode transcript.text
  context := transcript.context
  failure := transcript.failure

/-- The delivery to a writer that has room for so many bytes, and then refuses. -/
def deliveredWithin (room : Nat) (refusal : CommandError) (transcript : Transcript) : Delivery :=
  go room transcript.beats
where
  /-- Goes on with the room that is left. -/
  go (room : Nat) : List Beat → Delivery
    | [] => ⟨[], transcript.context, transcript.failure⟩
    | beat :: rest =>
      let bytes := Text.encode beat.text
      if room < bytes.length then ⟨bytes.take room, beat.context, some refusal⟩
      else
        let others := go (room - bytes.length) rest
        { others with written := bytes ++ others.written }

end Transcript

end MoveDesk
