import OrbsNetwork.Processor.Sanitizer

namespace OrbsNetwork.Processor

/-- Some node of the tree, the root included, satisfies `p`. -/
inductive Occurs (p : Node → Prop) : Node → Prop
  | here {n : Node} : p n → Occurs p n
  | child {kind : Kind} {children : List Node} {n : Node} : n ∈ children → Occurs p n → Occurs p (.node kind children)

theorem occurs_node_iff {p : Node → Prop} {kind : Kind} {children : List Node} :
    Occurs p (.node kind children) ↔ p (.node kind children) ∨ ∃ n ∈ children, Occurs p n := by
  constructor
  · rintro (found | ⟨member, below⟩)
    · exact .inl found
    · exact .inr ⟨_, member, below⟩
  · rintro (found | ⟨n, member, below⟩)
    · exact .here found
    · exact .child member below

section Inspect

variable (c : SanitizerConfig) (sprint : Node → String)

/-- A node the callback refuses. -/
def Flagged : Node → Prop
  | .node kind children => check c sprint kind children ≠ none

mutual
theorem inspect_eq_none_iff (err : Option String) :
    ∀ n : Node, inspect c sprint err n = none ↔ err = none ∧ ¬Occurs (Flagged c sprint) n
  | .node kind children => by
    rw [inspect, occurs_node_iff]
    cases verdict : check c sprint kind children with
    | some found =>
      simp only [reduceCtorEq, false_iff, not_and, not_not]
      exact fun _ => .inl (by simp [Flagged, verdict])
    | none =>
      dsimp only
      rw [inspectAll_eq_none_iff err children]
      simp [Flagged, verdict]
theorem inspectAll_eq_none_iff (err : Option String) :
    ∀ ns : List Node, inspectAll c sprint err ns = none ↔ err = none ∧ ∀ n ∈ ns, ¬Occurs (Flagged c sprint) n
  | [] => by simp [inspectAll]
  | n :: ns => by
    rw [inspectAll, inspectAll_eq_none_iff _ ns, inspect_eq_none_iff err n]
    simp [and_assoc]
end

end Inspect

section Verify

variable (c : SanitizerConfig) (sprint : Node → String)

/-- The nodes the callback refuses: a channel type, a `go` statement, a unary `<-`, and a call
whose function is a selector naming a blacklisted function. -/
theorem check_ne_none_iff (kind : Kind) (children : List Node) :
    check c sprint kind children ≠ none ↔
      kind = .chanType ∨ kind = .goStmt ∨ kind = .unaryExpr .arrow ∨
        kind = .callExpr ∧ ∃ x f selected later, children = .node .selectorExpr [x, .node (.ident f) selected] :: later ∧
          f ∈ c.functionBlacklist (exprString sprint x) := by
  unfold check
  split <;> simp_all

theorem foldl_inspect (err : Option String) (decls : List Node) :
    decls.foldl (inspect c sprint) err = inspectAll c sprint err decls := by
  induction decls generalizing err with
  | nil => rfl
  | cons decl later ih => rw [List.foldl_cons, ih, inspectAll]

/-- The error set in one declaration survives every later node and declaration: the check passes
exactly when no node of any declaration is refused. -/
theorem verifyDeclarationsAndStatements_eq_none_iff (decls : List Node) :
    verifyDeclarationsAndStatements c sprint decls = none ↔ ∀ decl ∈ decls, ¬Occurs (Flagged c sprint) decl := by
  rw [verifyDeclarationsAndStatements, foldl_inspect, inspectAll_eq_none_iff]
  simp

theorem foundInPrefixes_iff (candidate : String) (allowedPrefixes : List (List UInt8)) :
    foundInPrefixes candidate allowedPrefixes = true ↔
      ∃ pre ∈ allowedPrefixes, hasPrefix (utf8Bytes candidate) pre = true := by
  simp [foundInPrefixes]

/-- The allowed prefixes are the keys ending in `*"`, each less its last three bytes. -/
theorem mem_allowedPrefixes (pre : List UInt8) :
    pre ∈ c.allowedPrefixes ↔
      ∃ key ∈ c.importWhitelist, hasSuffix (utf8Bytes key) (utf8Bytes "*\"") = true ∧
        (utf8Bytes key).take ((utf8Bytes key).length - 3) = pre := by
  simp [SanitizerConfig.allowedPrefixes, and_assoc]

theorem verifyImports_eq_none_iff (allowedPrefixes : List (List UInt8)) (imports : List ImportSpec) :
    verifyImports c allowedPrefixes imports = none ↔
      ∀ spec ∈ imports, spec.name = none ∧
        (spec.path ∈ c.importWhitelist ∨ foundInPrefixes spec.path allowedPrefixes = true) := by
  induction imports with
  | nil => simp [verifyImports]
  | cons spec later ih =>
    rw [verifyImports]
    by_cases named : spec.name.isSome
    · simp only [named, if_true, reduceCtorEq, false_iff, not_forall]
      exact ⟨spec, List.mem_cons_self, fun unnamed => by simp [unnamed] at named⟩
    · have unnamed : spec.name = none := Option.not_isSome_iff_eq_none.mp named
      simp only [named, Bool.false_eq_true, if_false]
      by_cases refused : spec.path ∉ c.importWhitelist ∧ !foundInPrefixes spec.path allowedPrefixes
      · rw [if_pos refused]
        simp only [reduceCtorEq, false_iff, not_forall]
        refine ⟨spec, List.mem_cons_self, fun ⟨_, listed⟩ => ?_⟩
        rcases listed with whitelisted | found
        · exact refused.1 whitelisted
        · simp [found] at refused
      · rw [if_neg refused, ih]
        have kept : spec.path ∈ c.importWhitelist ∨ foundInPrefixes spec.path allowedPrefixes = true := by
          by_cases whitelisted : spec.path ∈ c.importWhitelist
          · exact .inl whitelisted
          · exact .inr (by simpa [whitelisted] using refused)
        simp [unnamed, kept]

/-- What `verifyAll` accepts: imports with no custom name whose path is whitelisted or starts, byte
by byte, with a wildcard key less its last three bytes, and declarations in which the callback
refuses no node. -/
theorem verifyAll_eq_none_iff (astFile : File) :
    verifyAll c sprint astFile = none ↔
      (∀ spec ∈ astFile.imports, spec.name = none ∧ (spec.path ∈ c.importWhitelist ∨
        ∃ key ∈ c.importWhitelist, hasSuffix (utf8Bytes key) (utf8Bytes "*\"") = true ∧
          hasPrefix (utf8Bytes spec.path) ((utf8Bytes key).take ((utf8Bytes key).length - 3)) = true)) ∧
      ∀ decl ∈ astFile.decls, ¬Occurs (Flagged c sprint) decl := by
  unfold verifyAll
  dsimp only
  cases imported : verifyImports c c.allowedPrefixes astFile.imports with
  | some err =>
    simp only [reduceCtorEq, false_iff, not_and]
    intro accepted
    have refused := (verifyImports_eq_none_iff c c.allowedPrefixes astFile.imports).not.mp (by simp [imported])
    exact absurd (fun spec member => by
      obtain ⟨unnamed, listed⟩ := accepted spec member
      refine ⟨unnamed, listed.imp id fun ⟨key, member, wildcard, prefixed⟩ => ?_⟩
      exact (foundInPrefixes_iff _ _).mpr ⟨_, (mem_allowedPrefixes c _).mpr ⟨key, member, wildcard, rfl⟩, prefixed⟩) refused
  | none =>
    have accepted := (verifyImports_eq_none_iff c c.allowedPrefixes astFile.imports).mp imported
    rw [verifyDeclarationsAndStatements_eq_none_iff]
    refine ⟨fun declsOk => ⟨fun spec member => ?_, declsOk⟩, fun ⟨_, declsOk⟩ => declsOk⟩
    obtain ⟨unnamed, listed⟩ := accepted spec member
    refine ⟨unnamed, listed.imp id fun found => ?_⟩
    obtain ⟨pre, within, prefixed⟩ := (foundInPrefixes_iff _ _).mp found
    obtain ⟨key, member, wildcard, rfl⟩ := (mem_allowedPrefixes c pre).mp within
    exact ⟨key, member, wildcard, prefixed⟩

end Verify

section Claim

/-- The `P` of a wildcard key written `"P/*"`. -/
def wildcardBase (key : String) : Option (List Char) :=
  match key.toList with
  | '"' :: rest => if ['/', '*', '"'].isSuffixOf rest then some (rest.take (rest.length - 3)) else none
  | _ => none

/-- A path lies under the wildcard key `"P/*"`: it is `"P"` or starts with `"P/`. -/
def underWildcard (key path : String) : Bool :=
  match wildcardBase key with
  | some base => path.toList == '"' :: base ++ ['"'] || ('"' :: base ++ ['/']).isPrefixOf path.toList
  | none => false

/-- An import the sanitizer is meant to allow: no custom name, and a whitelisted path or one under
a wildcard key. -/
def ImportAllowed (c : SanitizerConfig) (spec : ImportSpec) : Prop :=
  spec.name = none ∧ (spec.path ∈ c.importWhitelist ∨ ∃ key ∈ c.importWhitelist, underWildcard key spec.path = true)

/-- What no declaration is meant to contain: a channel type, a `go` statement, a channel receive,
a channel send, or a selector `pkg.f` naming a blacklisted function, called or not. -/
def Forbidden (c : SanitizerConfig) : Node → Prop
  | .node .chanType _ => True
  | .node .goStmt _ => True
  | .node (.unaryExpr .arrow) _ => True
  | .node .sendStmt _ => True
  | .node .selectorExpr [.node (.ident pkg) _, .node (.ident f) _] => f ∈ c.functionBlacklist pkg
  | _ => False

/-- The production sanitizer accepts a file that imports `"time"` and `"cryptocurrency/miner"`, each
in a declaration of its own, and declares

    func f() {
      ch <- 1
      g := time.Sleep
      (time.Sleep)(1)
    }

The import is not whitelisted and lies under no wildcard key: `"crypto/*"` allows every path that
starts with `"crypto`. The send statement is no unary `<-`, which is all the callback looks for.
`time.Sleep` is blacklisted but is checked only as the function of a call, so neither the value
nor the call through parentheses is seen. -/
theorem verifyAll_accepts_forbidden (sprint : Node → String) :
    let sleep : Node := .node .selectorExpr [.node (.ident "time") [], .node (.ident "Sleep") []]
    let send : Node := .node .sendStmt [.node (.ident "ch") [], .node .other []]
    let decl : Node := .node .other [.node (.ident "f") [], .node .other [.node .other []], .node .other [send,
      .node .other [.node (.ident "g") [], sleep],
      .node .other [.node .callExpr [.node .other [sleep], .node .other []]]]]
    let importDecl : Node := .node .other [.node .other [.node .other []]]
    let imports : List ImportSpec := [⟨none, "\"time\""⟩, ⟨none, "\"cryptocurrency/miner\""⟩]
    verifyAll sanitizerConfigForProduction sprint ⟨imports, [importDecl, importDecl, decl]⟩ = none ∧
      ¬ImportAllowed sanitizerConfigForProduction ⟨none, "\"cryptocurrency/miner\""⟩ ∧
      Forbidden sanitizerConfigForProduction send ∧ Forbidden sanitizerConfigForProduction sleep ∧
      Occurs (· = send) decl ∧ Occurs (· = sleep) decl := by
  intro sleep send decl importDecl imports
  refine ⟨rfl, ?_, trivial, ?_, ?_, ?_⟩
  · unfold ImportAllowed
    decide
  · show "Sleep" ∈ sanitizerConfigForProduction.functionBlacklist "time"
    decide
  · exact .child (List.mem_cons_of_mem _ (List.mem_cons_of_mem _ List.mem_cons_self)) (.child List.mem_cons_self (.here rfl))
  · exact .child (List.mem_cons_of_mem _ (List.mem_cons_of_mem _ List.mem_cons_self))
      (.child (List.mem_cons_of_mem _ List.mem_cons_self) (.child (List.mem_cons_of_mem _ List.mem_cons_self) (.here rfl)))

end Claim

end OrbsNetwork.Processor
