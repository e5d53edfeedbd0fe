import Mathlib

namespace OrbsNetwork.Processor

/-- The operators of `ast.UnaryExpr`. -/
inductive UnaryOp
  | add | sub | not | xor | mul | and | arrow | tilde
  deriving DecidableEq, Repr

/-- The node types of `go/ast` the sanitizer's callback tells apart; every other node type is
`other`. The children are the node's fields in order: a call's function and then its arguments,
a selector's expression and then its `Sel` identifier. -/
inductive Kind
  | chanType
  | goStmt
  | unaryExpr (op : UnaryOp)
  | callExpr
  | selectorExpr
  | ident (name : String)
  | sendStmt
  | other
  deriving DecidableEq, Repr

/-- A node of the syntax tree of a declaration. -/
inductive Node
  | node (kind : Kind) (children : List Node)
  deriving Repr

/-- `ast.ImportSpec`: its custom name if any, and its path as written, quotes included. -/
structure ImportSpec where
  name : Option String
  path : String
  deriving DecidableEq, Repr

/-- `ast.File`: its import specs and its declarations. -/
structure File where
  imports : List ImportSpec
  decls : List Node

/-- `SanitizerConfig`: the keys of the import whitelist and the function blacklist by package. -/
structure SanitizerConfig where
  importWhitelist : List String
  functionBlacklist : String → List String

/-- The bytes of a string in UTF-8, which Go's strings are. -/
def utf8Bytes (s : String) : List UInt8 :=
  s.toList.flatMap String.utf8EncodeChar

/-- `strings.HasPrefix`, on bytes. -/
def hasPrefix (s pre : List UInt8) : Bool :=
  pre.isPrefixOf s

/-- `strings.HasSuffix`, on bytes. -/
def hasSuffix (s suf : List UInt8) : Bool :=
  suf.isSuffixOf s

/-- `AllowedPrefixes`: each key ending in `*"` without its last three bytes. Where the character
before `*` is not ASCII the cut leaves part of it, so the prefixes are kept as bytes. -/
def SanitizerConfig.allowedPrefixes (c : SanitizerConfig) : List (List UInt8) :=
  (c.importWhitelist.filter fun whitelist => hasSuffix (utf8Bytes whitelist) (utf8Bytes "*\"")).map fun whitelist =>
    (utf8Bytes whitelist).take ((utf8Bytes whitelist).length - 3)

/-- `foundInPrefixes`. -/
def foundInPrefixes (candidate : String) (allowedPrefixes : List (List UInt8)) : Bool :=
  allowedPrefixes.any fun pre => hasPrefix (utf8Bytes candidate) pre

/-- `verifyImports`: the first import with a custom name or a path neither whitelisted nor under
an allowed prefix gives the error. -/
def verifyImports (c : SanitizerConfig) (allowedPrefixes : List (List UInt8)) : List ImportSpec → Option String
  | [] => none
  | importSpec :: later =>
    if importSpec.name.isSome then some "custom import names not allowed"
    else
      let importPath := importSpec.path
      if importPath ∉ c.importWhitelist ∧ !foundInPrefixes importPath allowedPrefixes then
        some s!"import not allowed '{importPath}'"
      else verifyImports c allowedPrefixes later

section Declarations

-- `fmt.Sprintf("%s", expr.X)` of a selector's expression that is not an identifier
variable (c : SanitizerConfig) (sprint : Node → String)

/-- `fmt.Sprintf("%s", x)`: an identifier prints its name. -/
def exprString : Node → String
  | .node (.ident name) _ => name
  | x => sprint x

/-- The callback of `verifyDeclarationsAndStatements` at a node: the error it sets, and then it
returns `false`; `none` when it returns `true`. -/
def check : Kind → List Node → Option String
  | .chanType, _ => some "channels not allowed"
  | .goStmt, _ => some "goroutines not allowed"
  | .unaryExpr .arrow, _ => some "sending to channels not allowed"
  | .callExpr, .node .selectorExpr [x, .node (.ident f) _] :: _ =>
    let pkg := exprString sprint x
    if f ∈ c.functionBlacklist pkg then some s!"{pkg}.{f} not allowed" else none
  | _, _ => none

mutual
/-- `ast.Inspect` of a node with the callback, threading the captured `err`: a node the
callback refuses sets it and is not descended into. -/
def inspect (err : Option String) : Node → Option String
  | .node kind children =>
    match check c sprint kind children with
    | some found => some found
    | none => inspectAll err children

/-- The children of a node, in order. -/
def inspectAll (err : Option String) : List Node → Option String
  | [] => err
  | child :: later => inspectAll (inspect err child) later
end

/-- `verifyDeclarationsAndStatements`: every declaration inspected in turn; the error is the one
the callback set last, `nil` when it set none. -/
def verifyDeclarationsAndStatements (decls : List Node) : Option String :=
  decls.foldl (inspect c sprint) none

/-- `verifyAll`. -/
def verifyAll (astFile : File) : Option String :=
  let allowedPrefixes := c.allowedPrefixes
  match verifyImports c allowedPrefixes astFile.imports with
  | some err => some err
  | none => verifyDeclarationsAndStatements c sprint astFile.decls

/-- `Process`, with `parser.ParseFile` and `printer.Fprint`. -/
def process (parseFile : String → Except String File) (fprint : File → Except String String) (code : String) :
    Except String String :=
  match parseFile code with
  | .error err => .error s!"native code verifier cannot parse source file: {err}"
  | .ok astFile =>
    match verifyAll c sprint astFile with
    | some err => .error s!"native code verification error: {err}"
    | none =>
      match fprint astFile with
      | .error err => .error s!"native code verifier cannot print source: {err}"
      | .ok res => .ok res

end Declarations

/-- `SanitizerConfigForProduction`. -/
def sanitizerConfigForProduction : SanitizerConfig where
  importWhitelist := ["\"github.com/orbs-network/orbs-contract-sdk/go/sdk/v1/*\"",
    "\"github.com/orbs-network/contract-external-libraries-go/v1/*\"", "\"strings\"", "\"strconv\"",
    "\"text/template\"", "\"time\"", "\"bytes\"", "\"encoding/binary\"", "\"io\"", "\"encoding/json\"",
    "\"encoding/hex\"", "\"encoding/base32\"", "\"encoding/base64\"", "\"sort\"", "\"hash\"", "\"crypto\"",
    "\"crypto/*\"", "\"golang.org/x/crypto\"", "\"golang.org/x/crypto/ed25519\"", "\"golang.org/x/crypto/sha3\"",
    "\"math/big\""]
  functionBlacklist pkg :=
    if pkg = "time" then ["After", "AfterFunc", "Sleep", "Tick", "NewTimer", "NewTicker", "Now"] else []

end OrbsNetwork.Processor
