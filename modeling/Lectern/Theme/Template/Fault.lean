import Lectern.Text.Digit
import Lectern.Text.Quoted
import Lectern.Text.Utf8

/-!
# Faults of templates

* `ReadFault`     why a text is no template;
* `RenderFault`   why a template has no text for the given values.
-/

namespace Lectern.Theme
open Text

/-- Why a text is no template. -/
inductive ReadFault where
  /-- The text breaks a rule of form. -/
  | form (message : Text)
  /-- A name stands for nothing. -/
  | unknown (message : Text)
  | digits (e : TooManyDigits)
  deriving DecidableEq

def ReadFault.message : ReadFault → Text
  | .form m | .unknown m => m
  | .digits e => e.message.toList

/-- The word for a fault in reports. -/
def ReadFault.label : ReadFault → String
  | .form _ => "TemplateSyntaxError"
  | .unknown _ => "TemplateAssertionError"
  | .digits _ => "ValueError"

inductive RenderFault where
  /-- A value that is not there is used. -/
  | undefined (message : Text)
  /-- A template that is to be included is not there. -/
  | notFound (message : Text)
  /-- None of several templates is there. -/
  | noneFound (message : Text)
  /-- A template that is to be included cannot be read. -/
  | unreadable (e : ReadFault)
  /-- A template that is to be included is no text. -/
  | encoding (e : DecodeError)
  /-- Values do not fit together. -/
  | misfit (message : Text)
  /-- A value has the right kind but not the right size or form. -/
  | value (message : Text)
  | division (message : Text)
  /-- A number is beyond what can be written. -/
  | overflow (message : Text)
  /-- A list has no item at a position. -/
  | position (message : Text)
  /-- A mapping has no entry of a key. -/
  | key (message : Text)
  /-- A value lacks what is needed of it. -/
  | lacking (message : Text)
  /-- A length is too small. -/
  | short (message : Text)
  /-- A filter cannot use its arguments. -/
  | arguments (message : Text)
  /-- What is asked for cannot be done in a page. -/
  | unable (message : Text)
  /-- Templates nest too deeply. -/
  | depth
  deriving DecidableEq

def RenderFault.message : RenderFault → Text
  | .undefined m | .notFound m | .noneFound m | .misfit m | .value m | .division m | .overflow m
  | .position m | .key m | .lacking m | .short m | .arguments m | .unable m => m
  | .unreadable e => e.message
  | .encoding e => e.message.toList
  | .depth => "maximum recursion depth exceeded"

/-- The word for a fault in reports. -/
def RenderFault.label : RenderFault → String
  | .undefined _ => "UndefinedError"
  | .notFound _ => "TemplateNotFound"
  | .noneFound _ => "TemplatesNotFound"
  | .unreadable e => e.label
  | .encoding _ => "UnicodeDecodeError"
  | .misfit _ => "TypeError"
  | .value _ => "ValueError"
  | .division _ => "ZeroDivisionError"
  | .overflow _ => "OverflowError"
  | .position _ => "IndexError"
  | .key _ => "KeyError"
  | .lacking _ => "AttributeError"
  | .short _ => "AssertionError"
  | .arguments _ => "FilterArgumentError"
  | .unable _ => "TemplateRuntimeError"
  | .depth => "RecursionError"

/-- A document that meets the fault fails alone: a file is missing, or is no text. -/
def RenderFault.isLocal : RenderFault → Bool
  | .notFound _ | .noneFound _ | .encoding _ => true
  | _ => false

end Lectern.Theme
