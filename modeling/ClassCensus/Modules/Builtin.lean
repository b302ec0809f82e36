import ClassCensus.Catalog.Reflection

/-!
# ClassCensus.Modules.Builtin

The module `builtins`, which is always loaded: its classes with their ancestors, and the classes
of plain values.
-/

namespace ClassCensus
namespace Builtin

def home : Text := "builtins"

def named (path : Text) : TypeName := ⟨home, path⟩

/-- The class every other one descends from. -/
def object : TypeName := named "object"

def root : Lineage := .make object [] []

/-- A class in a line of single descent, given from itself up to the child of `object`. -/
def line : List String → Lineage
  | [] => root
  | path :: rest => .make (named path) [line rest] (line rest).order

/-- The one class with two bases. -/
def exceptionGroup : Lineage :=
  .make (named "ExceptionGroup")
    [line ["BaseExceptionGroup", "BaseException"], line ["Exception", "BaseException"]]
    [named "BaseExceptionGroup", named "Exception", named "BaseException", object]

/-- The names under which classes in lines of single descent are found, each with that line. -/
def classes : List (String × List String) :=
  [("ArithmeticError", ["ArithmeticError", "Exception", "BaseException"]),
  ("AssertionError", ["AssertionError", "Exception", "BaseException"]),
  ("AttributeError", ["AttributeError", "Exception", "BaseException"]),
  ("BaseException", ["BaseException"]),
  ("BaseExceptionGroup", ["BaseExceptionGroup", "BaseException"]),
  ("BlockingIOError", ["BlockingIOError", "OSError", "Exception", "BaseException"]),
  ("BrokenPipeError",
    ["BrokenPipeError", "ConnectionError", "OSError", "Exception", "BaseException"]),
  ("BufferError", ["BufferError", "Exception", "BaseException"]),
  ("BytesWarning", ["BytesWarning", "Warning", "Exception", "BaseException"]),
  ("ChildProcessError", ["ChildProcessError", "OSError", "Exception", "BaseException"]),
  ("ConnectionAbortedError",
    ["ConnectionAbortedError", "ConnectionError", "OSError", "Exception", "BaseException"]),
  ("ConnectionError", ["ConnectionError", "OSError", "Exception", "BaseException"]),
  ("ConnectionRefusedError",
    ["ConnectionRefusedError", "ConnectionError", "OSError", "Exception", "BaseException"]),
  ("ConnectionResetError",
    ["ConnectionResetError", "ConnectionError", "OSError", "Exception", "BaseException"]),
  ("DeprecationWarning", ["DeprecationWarning", "Warning", "Exception", "BaseException"]),
  ("EOFError", ["EOFError", "Exception", "BaseException"]),
  ("EncodingWarning", ["EncodingWarning", "Warning", "Exception", "BaseException"]),
  ("EnvironmentError", ["OSError", "Exception", "BaseException"]),
  ("Exception", ["Exception", "BaseException"]),
  ("FileExistsError", ["FileExistsError", "OSError", "Exception", "BaseException"]),
  ("FileNotFoundError", ["FileNotFoundError", "OSError", "Exception", "BaseException"]),
  ("FloatingPointError", ["FloatingPointError", "ArithmeticError", "Exception", "BaseException"]),
  ("FutureWarning", ["FutureWarning", "Warning", "Exception", "BaseException"]),
  ("GeneratorExit", ["GeneratorExit", "BaseException"]),
  ("IOError", ["OSError", "Exception", "BaseException"]),
  ("ImportError", ["ImportError", "Exception", "BaseException"]),
  ("ImportWarning", ["ImportWarning", "Warning", "Exception", "BaseException"]),
  ("IndentationError", ["IndentationError", "SyntaxError", "Exception", "BaseException"]),
  ("IndexError", ["IndexError", "LookupError", "Exception", "BaseException"]),
  ("InterruptedError", ["InterruptedError", "OSError", "Exception", "BaseException"]),
  ("IsADirectoryError", ["IsADirectoryError", "OSError", "Exception", "BaseException"]),
  ("KeyError", ["KeyError", "LookupError", "Exception", "BaseException"]),
  ("KeyboardInterrupt", ["KeyboardInterrupt", "BaseException"]),
  ("LookupError", ["LookupError", "Exception", "BaseException"]),
  ("MemoryError", ["MemoryError", "Exception", "BaseException"]),
  ("ModuleNotFoundError", ["ModuleNotFoundError", "ImportError", "Exception", "BaseException"]),
  ("NameError", ["NameError", "Exception", "BaseException"]),
  ("NotADirectoryError", ["NotADirectoryError", "OSError", "Exception", "BaseException"]),
  ("NotImplementedError", ["NotImplementedError", "RuntimeError", "Exception", "BaseException"]),
  ("OSError", ["OSError", "Exception", "BaseException"]),
  ("OverflowError", ["OverflowError", "ArithmeticError", "Exception", "BaseException"]),
  ("PendingDeprecationWarning",
    ["PendingDeprecationWarning", "Warning", "Exception", "BaseException"]),
  ("PermissionError", ["PermissionError", "OSError", "Exception", "BaseException"]),
  ("ProcessLookupError", ["ProcessLookupError", "OSError", "Exception", "BaseException"]),
  ("RecursionError", ["RecursionError", "RuntimeError", "Exception", "BaseException"]),
  ("ReferenceError", ["ReferenceError", "Exception", "BaseException"]),
  ("ResourceWarning", ["ResourceWarning", "Warning", "Exception", "BaseException"]),
  ("RuntimeError", ["RuntimeError", "Exception", "BaseException"]),
  ("RuntimeWarning", ["RuntimeWarning", "Warning", "Exception", "BaseException"]),
  ("StopAsyncIteration", ["StopAsyncIteration", "Exception", "BaseException"]),
  ("StopIteration", ["StopIteration", "Exception", "BaseException"]),
  ("SyntaxError", ["SyntaxError", "Exception", "BaseException"]),
  ("SyntaxWarning", ["SyntaxWarning", "Warning", "Exception", "BaseException"]),
  ("SystemError", ["SystemError", "Exception", "BaseException"]),
  ("SystemExit", ["SystemExit", "BaseException"]),
  ("TabError", ["TabError", "IndentationError", "SyntaxError", "Exception", "BaseException"]),
  ("TimeoutError", ["TimeoutError", "OSError", "Exception", "BaseException"]),
  ("TypeError", ["TypeError", "Exception", "BaseException"]),
  ("UnboundLocalError", ["UnboundLocalError", "NameError", "Exception", "BaseException"]),
  ("UnicodeDecodeError",
    ["UnicodeDecodeError", "UnicodeError", "ValueError", "Exception", "BaseException"]),
  ("UnicodeEncodeError",
    ["UnicodeEncodeError", "UnicodeError", "ValueError", "Exception", "BaseException"]),
  ("UnicodeError", ["UnicodeError", "ValueError", "Exception", "BaseException"]),
  ("UnicodeTranslateError",
    ["UnicodeTranslateError", "UnicodeError", "ValueError", "Exception", "BaseException"]),
  ("UnicodeWarning", ["UnicodeWarning", "Warning", "Exception", "BaseException"]),
  ("UserWarning", ["UserWarning", "Warning", "Exception", "BaseException"]),
  ("ValueError", ["ValueError", "Exception", "BaseException"]),
  ("Warning", ["Warning", "Exception", "BaseException"]),
  ("ZeroDivisionError", ["ZeroDivisionError", "ArithmeticError", "Exception", "BaseException"]),
  ("bool", ["bool", "int"]), ("bytearray", ["bytearray"]), ("bytes", ["bytes"]),
  ("classmethod", ["classmethod"]), ("complex", ["complex"]), ("dict", ["dict"]),
  ("enumerate", ["enumerate"]), ("filter", ["filter"]), ("float", ["float"]),
  ("frozenset", ["frozenset"]), ("int", ["int"]), ("list", ["list"]), ("map", ["map"]),
  ("memoryview", ["memoryview"]), ("object", []), ("property", ["property"]),
  ("range", ["range"]), ("reversed", ["reversed"]), ("set", ["set"]), ("slice", ["slice"]),
  ("staticmethod", ["staticmethod"]), ("str", ["str"]), ("super", ["super"]),
  ("tuple", ["tuple"]), ("type", ["type"]), ("zip", ["zip"])]

/-- The class of a plain value. -/
def lineageOf : Value → Lineage
  | .null => line ["NoneType"]
  | .bool _ => line ["bool", "int"]
  | .int _ => line ["int"]
  | .real _ => line ["float"]
  | .text _ => line ["str"]
  | .list _ => line ["list"]
  | .map _ => line ["dict"]

/-- A class got arguments it cannot be made from. -/
def unfit : Raised := ⟨"TypeError".toList, "unsupported arguments".toList⟩

/-- Makes a plain value from at most one other. -/
def construct (path : Text) (arguments : List Value) : Except Raised Object :=
  match String.ofList path, arguments with
  | "str", [] => .ok (.value (.text []))
  | "str", [v] => .ok (.value (.text v.plain))
  | "bool", [] => .ok (.value (.bool false))
  | "bool", [v] => .ok (.value (.bool !v.isVoid))
  | "int", [] => .ok (.value (.int 0))
  | "int", [.scalar s] =>
    match s.asInt? with
    | some n => .ok (.value (.int n))
    | none => .error unfit
  | "list", [] => .ok (.value (.list []))
  | "list", [.list items] => .ok (.value (.list items))
  | "dict", [] => .ok (.value (.map []))
  | "dict", [.map entries] => .ok (.value (.map entries))
  | _, _ => .error unfit

end Builtin
end ClassCensus
