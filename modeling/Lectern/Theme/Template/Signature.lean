import Lectern.Text.Basic

/-!
# The filters and tests of templates

What each filter and each test is called with.  The value that it stands behind is handed to it
before its arguments; some are handed the place in the template as well.

* `Signature`          what a filter or a test is called with;
* `filterSignatures`   the filters, by their names;
* `testSignatures`     the tests.
-/

namespace Lectern.Theme.Template

/-- In what words a call with the wrong arguments is refused. -/
inductive Refusal where
  /-- The parameters are named. -/
  | naming
  /-- The arguments are counted, and there is one of them. -/
  | counting
  /-- The arguments are counted, and there are two of them. -/
  | expecting

structure Signature where
  /-- The name that messages tell. -/
  name : String
  required : List String := []
  optional : List String := []
  /-- How many values it is handed before the arguments. -/
  handed : Nat := 1
  /-- Further arguments may have any number and any names. -/
  isOpen : Bool := false
  refusal : Refusal := .naming

/-- A filter that needs no more than its value. -/
def Signature.plain (name : String) : Signature := { name }

/-- A filter that may be called with arguments. -/
def Signature.with (name : String) (required optional : List String) (handed : Nat := 1) :
    Signature :=
  { name, required, optional, handed }

def Signature.ofAny (name : String) (handed : Nat := 1) : Signature :=
  { name, handed, isOpen := true }

def filterSignatures : List (String × Signature) :=
  [("abs", { name := "abs", refusal := .counting }),
    ("attr", .with "do_attr" ["name"] [] 2),
    ("batch", .with "do_batch" ["linecount"] ["fill_with"]),
    ("capitalize", .plain "do_capitalize"),
    ("center", .with "do_center" [] ["width"]),
    ("count", { name := "len", refusal := .counting }),
    ("d", .with "do_default" [] ["default_value", "boolean"]),
    ("default", .with "do_default" [] ["default_value", "boolean"]),
    ("dictsort", .with "do_dictsort" [] ["case_sensitive", "by", "reverse"]),
    ("e", .plain "escape"),
    ("escape", .plain "escape"),
    ("filesizeformat", .with "do_filesizeformat" [] ["binary"]),
    ("first", .with "sync_do_first" [] [] 2),
    ("float", .with "do_float" [] ["default"]),
    ("forceescape", .plain "do_forceescape"),
    ("format", .ofAny "do_format"),
    ("groupby", .with "sync_do_groupby" ["attribute"] ["default", "case_sensitive"] 2),
    ("indent", .with "do_indent" [] ["width", "first", "blank"]),
    ("int", .with "do_int" [] ["default", "base"]),
    ("items", .plain "do_items"),
    ("join", .with "sync_do_join" [] ["d", "attribute"] 2),
    ("last", .with "do_last" [] [] 2),
    ("length", { name := "len", refusal := .counting }),
    ("list", .plain "sync_do_list"),
    ("lower", .plain "do_lower"),
    ("map", .ofAny "sync_do_map" 2),
    ("max", .with "do_max" [] ["case_sensitive", "attribute"] 2),
    ("min", .with "do_min" [] ["case_sensitive", "attribute"] 2),
    ("pprint", .plain "do_pprint"),
    ("random", .with "do_random" [] [] 2),
    ("reject", .ofAny "sync_do_reject" 2),
    ("rejectattr", .ofAny "sync_do_rejectattr" 2),
    ("replace", .with "do_replace" ["old", "new"] ["count"] 2),
    ("reverse", .plain "do_reverse"),
    ("round", .with "do_round" [] ["precision", "method"]),
    ("safe", .plain "do_mark_safe"),
    ("select", .ofAny "sync_do_select" 2),
    ("selectattr", .ofAny "sync_do_selectattr" 2),
    ("slice", .with "sync_do_slice" ["slices"] ["fill_with"]),
    ("sort", .with "do_sort" [] ["reverse", "case_sensitive", "attribute"] 2),
    ("string", .plain "soft_str"),
    ("striptags", .plain "do_striptags"),
    ("sum", .with "sync_do_sum" [] ["attribute", "start"] 2),
    ("title", .plain "do_title"),
    ("tojson", .with "do_tojson" [] ["indent"] 2),
    ("trim", .with "do_trim" [] ["chars"]),
    ("truncate", .with "do_truncate" [] ["length", "killwords", "end", "leeway"] 2),
    ("unique", .with "do_unique" [] ["case_sensitive", "attribute"] 2),
    ("upper", .plain "do_upper"),
    ("urlencode", .plain "do_urlencode"),
    ("urlize", .with "do_urlize" []
      ["trim_url_limit", "nofollow", "target", "rel", "extra_schemes"] 2),
    ("wordcount", .plain "do_wordcount"),
    ("wordwrap", .with "do_wordwrap" []
      ["width", "break_long_words", "wrapstring", "break_on_hyphens"] 2),
    ("xmlattr", .with "do_xmlattr" [] ["autospace"] 2)]

/-- A test that compares its value with another one. -/
def Signature.comparing (name : String) : Signature :=
  { name, required := ["other"], refusal := .expecting }

def testSignatures : List (String × Signature) :=
  [("boolean", .plain "test_boolean"),
    ("callable", { name := "callable", refusal := .counting }),
    ("defined", .plain "test_defined"),
    ("divisibleby", .with "test_divisibleby" ["num"] []),
    ("escaped", .plain "test_escaped"),
    ("even", .plain "test_even"),
    ("false", .plain "test_false"),
    ("filter", .with "test_filter" [] [] 2),
    ("float", .plain "test_float"),
    ("in", .with "test_in" ["seq"] []),
    ("integer", .plain "test_integer"),
    ("iterable", .plain "test_iterable"),
    ("lower", .plain "test_lower"),
    ("mapping", .plain "test_mapping"),
    ("none", .plain "test_none"),
    ("number", .plain "test_number"),
    ("odd", .plain "test_odd"),
    ("sameas", .with "test_sameas" ["other"] []),
    ("sequence", .plain "test_sequence"),
    ("string", .plain "test_string"),
    ("test", .with "test_test" [] [] 2),
    ("true", .plain "test_true"),
    ("undefined", .plain "test_undefined"),
    ("upper", .plain "test_upper"),
    ("eq", .comparing "eq"), ("equalto", .comparing "eq"), ("==", .comparing "eq"),
    ("ne", .comparing "ne"), ("!=", .comparing "ne"),
    ("lt", .comparing "lt"), ("lessthan", .comparing "lt"), ("<", .comparing "lt"),
    ("le", .comparing "le"), ("<=", .comparing "le"),
    ("gt", .comparing "gt"), ("greaterthan", .comparing "gt"), (">", .comparing "gt"),
    ("ge", .comparing "ge"), (">=", .comparing "ge")]

/-- The signature of a name. -/
def signature? (name : Text) (all : List (String × Signature)) : Option Signature :=
  (all.find? fun e => e.1.toList = name).map (·.2)

end Lectern.Theme.Template
