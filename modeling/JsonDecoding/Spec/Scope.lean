import JsonDecoding.Spec.Names

/-!
# What names stand for

The names that an annotation in writing can use. Everywhere these are the builtin types and
functions; a record class adds the types that a program's own parts have, and the defaults of its
fields.
-/

namespace JsonDecoding

/-- What names stand for. A name can stand for a text that has to be read in turn; `depth` bounds
how many texts inside one another names bring in that way. -/
structure Scope where
  find? : Text → Option Spec
  depth : Nat

namespace Scope

/-- The scope in which names are looked up in the first scope and then in the second. -/
def before (first second : Scope) : Scope :=
  ⟨fun name => (first.find? name).or (second.find? name), first.depth + second.depth⟩

/-- A scope of data under names. -/
def ofData (entries : List (Text × Data)) : Scope where
  find? name := (entries.lookup name).map .token
  depth := (entries.map fun entry =>
    match entry.2 with
    | .str text => text.length + 1
    | _ => 0).foldr (· + ·) 0

/-- A scope of types under names. -/
def ofTypes (entries : List (Text × Builtin)) : Scope :=
  ⟨fun name => (entries.lookup name).map .builtin, 0⟩

/-! ## Builtin types -/

/-- The builtin types that can be named anywhere, beside those without a specification. -/
def namedTypes : List Builtin :=
  [.bool, .int, .float, .str, .list, .dict, .set, .frozenset, .tuple, .bytes, .object, .complex,
    .metaclass, .ellipsis]

/-- A type without a home, parameters and specification. -/
def bare (name : String) : Builtin := .plain ⟨Text.lit name, [], false⟩

/-- A type with parameters that has neither a home nor a specification. -/
def container (name : String) : Builtin := .plain ⟨Text.lit name, [], true⟩

/-- The kinds of errors that can be named. -/
def errorNames : List String :=
  ["ArithmeticError", "AssertionError", "AttributeError", "BaseException", "BlockingIOError",
    "BrokenPipeError", "BufferError", "ChildProcessError", "ConnectionAbortedError",
    "ConnectionError", "ConnectionRefusedError", "ConnectionResetError", "EOFError", "Exception",
    "FileExistsError", "FileNotFoundError", "FloatingPointError", "GeneratorExit", "ImportError",
    "IndentationError", "IndexError", "InterruptedError", "IsADirectoryError", "KeyError",
    "KeyboardInterrupt", "LookupError", "MemoryError", "ModuleNotFoundError", "NameError",
    "NotADirectoryError", "NotImplementedError", "OSError", "OverflowError", "PermissionError",
    "ProcessLookupError", "RecursionError", "ReferenceError", "RuntimeError", "StopAsyncIteration",
    "StopIteration", "SyntaxError", "SystemError", "SystemExit", "TabError", "TimeoutError",
    "TypeError", "UnboundLocalError", "UnicodeDecodeError", "UnicodeEncodeError", "UnicodeError",
    "UnicodeTranslateError", "ValueError", "ZeroDivisionError"]

/-- The kinds of warnings that can be named. -/
def warningNames : List String :=
  ["BytesWarning", "DeprecationWarning", "EncodingWarning", "FutureWarning", "ImportWarning",
    "PendingDeprecationWarning", "ResourceWarning", "RuntimeWarning", "SyntaxWarning",
    "UnicodeWarning", "UserWarning", "Warning"]

/-- The other builtin types that have neither a specification nor parameters. -/
def bareNames : List String :=
  ["bytearray", "classmethod", "filter", "map", "memoryview", "property", "range", "reversed",
    "slice", "staticmethod", "super", "zip"]

/-- The functions that can be named. -/
def functionNames : List String :=
  ["__build_class__", "__import__", "abs", "aiter", "all", "anext", "any", "ascii", "bin",
    "breakpoint", "callable", "chr", "compile", "delattr", "dir", "divmod", "eval", "exec",
    "format", "getattr", "globals", "hasattr", "hash", "hex", "id", "input", "isinstance",
    "issubclass", "iter", "len", "locals", "max", "min", "next", "oct", "open", "ord", "pow",
    "print", "repr", "round", "setattr", "sorted", "sum", "vars"]

/-- The builtin types and functions. -/
def builtin : Scope :=
  ofTypes <|
    (namedTypes.map fun type => (type.name, type)) ++
    ((errorNames ++ warningNames ++ bareNames).map fun name => (Text.lit name, bare name)) ++
    (["BaseExceptionGroup", "ExceptionGroup", "enumerate"].map fun name =>
      (Text.lit name, container name)) ++
    (["EnvironmentError", "IOError"].map fun name => (Text.lit name, bare "OSError")) ++
    (functionNames.map fun name => (Text.lit name, .function (Text.lit name)))

/-! ## Types of a program's own parts -/

/-- The types of functions, frames and the like, which have other names of their own. -/
def internal : Scope :=
  let homed (name : String) : Text × Builtin :=
    (Text.lit name, .plain ⟨Text.lit name, Text.lit "types.", false⟩)
  ofTypes <|
    [("BuiltinFunctionType", bare "builtin_function_or_method"),
      ("BuiltinMethodType", bare "builtin_function_or_method"), ("CellType", bare "cell"),
      ("ClassMethodDescriptorType", bare "classmethod_descriptor"), ("CodeType", bare "code"),
      ("CoroutineType", bare "coroutine"), ("EllipsisType", bare "ellipsis"),
      ("FrameType", bare "frame"), ("FunctionType", bare "function"),
      ("GeneratorType", bare "generator"), ("GetSetDescriptorType", bare "getset_descriptor"),
      ("LambdaType", bare "function"), ("MemberDescriptorType", bare "member_descriptor"),
      ("MethodDescriptorType", bare "method_descriptor"), ("MethodType", bare "method"),
      ("MethodWrapperType", bare "method-wrapper"), ("ModuleType", bare "module"),
      ("NoneType", .noneType), ("NotImplementedType", bare "NotImplementedType"),
      ("TracebackType", bare "traceback"), ("WrapperDescriptorType", bare "wrapper_descriptor"),
      ("AsyncGeneratorType", container "async_generator"),
      ("MappingProxyType", container "mappingproxy")].map
        (fun entry : String × Builtin => (Text.lit entry.1, entry.2)) ++
    ["DynamicClassAttribute", "GenericAlias", "SimpleNamespace", "UnionType",
      "_GeneratorWrapper"].map homed

end Scope

end JsonDecoding
