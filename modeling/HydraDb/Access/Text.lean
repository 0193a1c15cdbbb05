import HydraDb.Core.Model
import HydraDb.Lib.Loop

/-!
# Query text, before any parser has seen it

Two decisions of `classify_opencypher_query_access` are taken on the raw text: whether it is a
native `CALL algo.*` procedure (`is_native_path_procedure`, `query/path_procedure.rs`) and where
its top-level `UNION` separators are (`split_top_level_union`, `query/opencypher.rs`). Both are
translated here, over the characters of the text.

The source walks bytes. Every byte it compares with is an ASCII one, and the bytes of a wider
character match none of them and are skipped one by one, so a walk over characters cuts the text
at the same places.
-/

namespace HydraDb

/-- A query text. -/
abbrev QueryText := List Char

/-! ## Character classes -/

/-- `char::is_whitespace`: the Unicode `White_Space` characters. -/
def isWhitespace (c : Char) : Bool :=
  let n := c.toNat
  (9 ≤ n && n ≤ 13) || n == 32 || n == 0x85 || n == 0xA0 || n == 0x1680
    || (0x2000 ≤ n && n ≤ 0x200A) || n == 0x2028 || n == 0x2029 || n == 0x202F || n == 0x205F
    || n == 0x3000

/-- `u8::is_ascii_whitespace`. -/
def isAsciiWhitespace (c : Char) : Bool :=
  c == ' ' || c == '\t' || c == '\n' || c.toNat == 12 || c == '\r'

/-- `is_cypher_identifier_start`. -/
def isCypherIdentifierStart (c : Char) : Bool :=
  c.isAlpha || c == '_'

/-- `is_cypher_identifier_continue`. -/
def isCypherIdentifierContinue (c : Char) : Bool :=
  isCypherIdentifierStart c || c.isDigit

/-- `str::eq_ignore_ascii_case`; `Char.toLower` changes ASCII letters only. -/
def eqIgnoreAsciiCase (text word : QueryText) : Bool :=
  text.map Char.toLower == word.map Char.toLower

/-- `str::trim_start`. -/
def trimStart (text : QueryText) : QueryText :=
  text.dropWhile isWhitespace

/-- `str::trim`. -/
def trim (text : QueryText) : QueryText :=
  (trimStart (trimStart text).reverse).reverse

/-! ## Native procedures -/

/-- `is_native_path_procedure`. -/
def isNativePathProcedure (query : QueryText) : Bool :=
  let query := trimStart query
  eqIgnoreAsciiCase (query.take 4) "CALL".toList
    && "algo.".toList.isPrefixOf ((trimStart (query.drop 4)).map Char.toLower)

/-- `starts_with_non_unwind_clause`: the text opens with a keyword that no batch opens with. -/
def startsWithNonUnwindClause (query : QueryText) : Bool :=
  let query := trimStart query
  ["CALL", "CREATE", "MATCH", "MERGE", "OPTIONAL", "REMOVE", "RETURN", "SET", "WITH"].any
    fun keyword =>
      eqIgnoreAsciiCase (query.take keyword.length) keyword.toList
        && (query.drop keyword.length).head?.all fun next =>
          isAsciiWhitespace next || next == '(' || next == '[' || next.toNat == 123

/-! ## Top-level `UNION` -/

/-- `query_might_contain_union`: some five characters in a row spell `UNION`. -/
def queryMightContainUnion (query : QueryText) : Bool :=
  query.tails.any fun window => eqIgnoreAsciiCase (window.take 5) "UNION".toList

/-- The characters a quoted token may open with: `'`, `"` and the backtick. -/
def quoteMarks : List Char :=
  [Char.ofNat 39, Char.ofNat 34, Char.ofNat 96]

/-- How many characters of `rest` belong to the token that `quote` opened before it
(`skip_quoted_cypher_token`): a backslash takes the next character with it, a doubled quote does
not end the token, and an unterminated token runs to the end of the text. -/
def quotedLength (quote : Char) : QueryText → Nat
  | [] => 0
  | [_] => 1
  | c :: next :: rest =>
    if c == Char.ofNat 92 then 2 + quotedLength quote rest
    else if c == quote then
      if next == quote then 2 + quotedLength quote rest else 1
    else 1 + quotedLength quote (next :: rest)

/-- How many characters of `rest` belong to a block comment opened before it
(`skip_block_comment`). -/
def blockCommentLength : QueryText → Nat
  | [] => 0
  | [_] => 1
  | c :: next :: rest =>
    if c == '*' && next == '/' then 2 else 1 + blockCommentLength (next :: rest)

/-- `skip_line_comment`. -/
def skipLineComment (query : QueryText) (index : Nat) : Nat :=
  index + ((query.drop index).takeWhile (· != '\n')).length

/-- `skip_block_comment`. -/
def skipBlockComment (query : QueryText) (index : Nat) : Nat :=
  index + blockCommentLength (query.drop index)

/-- `scan_cypher_identifier`. -/
def scanCypherIdentifier (query : QueryText) (index : Nat) : Nat :=
  index + ((query.drop index).takeWhile isCypherIdentifierContinue).length

/-- `skip_cypher_trivia`: white space and comments from `index` on. Each round of the source's
loop moves past a comment, so as many rounds as the text has characters are enough. -/
def skipCypherTrivia (query : QueryText) : Nat → Nat → Nat
  | 0, index => index
  | rounds + 1, index =>
    let index := index + ((query.drop index).takeWhile isAsciiWhitespace).length
    match query.drop index with
    | '/' :: '/' :: _ => skipCypherTrivia query rounds (skipLineComment query (index + 2))
    | '/' :: '*' :: _ => skipCypherTrivia query rounds (skipBlockComment query (index + 2))
    | _ => index

/-- `is_union_separator_token`: the word is not a parameter, a property or label name, or the
owner of a property. -/
def isUnionSeparatorToken (query : QueryText) (start stop : Nat) : Bool :=
  let previous := (query.take start).reverse.find? fun c => !isAsciiWhitespace c
  let next := (query.drop stop).find? fun c => !isAsciiWhitespace c
  !(previous == some '$' || previous == some '.' || previous == some ':') && next != some '.'

/-- One separator: where it starts and ends, and whether it is `UNION ALL`. -/
structure UnionSeparator where
  start : Nat
  stop : Nat
  unionAll : Bool
  deriving DecidableEq

/-- `MAX_TOP_LEVEL_UNION_ARMS`. -/
def maxTopLevelUnionArms : Nat := 256

/-- `parse_error`. -/
def parseError (reason : String) : GraphError :=
  .queryParse "OpenCypher" reason

/-- The early return of an error: `error` if `refused` holds. -/
def refuseIf (refused : Prop) [Decidable refused] (error : GraphError) : Except GraphError Unit :=
  if refused then .error error else .ok ()

@[simp] theorem refuseIf_eq_ok {refused : Prop} [Decidable refused] :
    refuseIf refused error = .ok u ↔ ¬ refused :=
  Except.guard_eq_ok_iff

/-- The separator that the word `query[start..stop]` is, given that it spells `UNION`: a following
`ALL` belongs to it. -/
def unionSeparator (query : QueryText) (start stop : Nat) : UnionSeparator :=
  let next := skipCypherTrivia query query.length stop
  let nextStop := scanCypherIdentifier query next
  let word := (query.drop next).take (nextStop - next)
  if (word.head?.any isCypherIdentifierStart) && eqIgnoreAsciiCase word "ALL".toList then
    ⟨start, nextStop, true⟩
  else
    ⟨start, stop, false⟩

/-- Whether `close` closes the delimiter `opened`. -/
def closesDelimiter (opened close : Char) : Bool :=
  (opened == '(' && close == ')') || (opened == '[' && close == ']')
    || (opened.toNat == 123 && close.toNat == 125)

/-- The scanning loop of `split_top_level_union`: the separators at or after `index`, behind the
ones found so far. Every round moves `index` forward, so as many rounds as the text has
characters reach its end. -/
def unionSeparators (query : QueryText) :
    Nat → Nat → List Char → List UnionSeparator → Except GraphError (List UnionSeparator)
  | 0, _, _, separators => .ok separators
  | rounds + 1, index, delimiters, separators =>
    match query.drop index with
    | [] => .ok separators
    | c :: rest =>
      if quoteMarks.contains c then
        unionSeparators query rounds (index + 1 + quotedLength c rest) delimiters separators
      else if c == '/' && rest.head? == some '/' then
        unionSeparators query rounds (skipLineComment query (index + 2)) delimiters separators
      else if c == '/' && rest.head? == some '*' then
        unionSeparators query rounds (skipBlockComment query (index + 2)) delimiters separators
      else if c == '(' || c == '[' || c.toNat == 123 then
        unionSeparators query rounds (index + 1) (c :: delimiters) separators
      else if c == ')' || c == ']' || c.toNat == 125 then
        let delimiters :=
          if delimiters.head?.any (closesDelimiter · c) then delimiters.tail else delimiters
        unionSeparators query rounds (index + 1) delimiters separators
      else if delimiters.isEmpty && isCypherIdentifierStart c then
        let stop := scanCypherIdentifier query index
        if eqIgnoreAsciiCase ((query.drop index).take (stop - index)) "UNION".toList
            && isUnionSeparatorToken query index stop then
          let separator := unionSeparator query index stop
          let separators := separators ++ [separator]
          if separators.length ≥ maxTopLevelUnionArms then
            .error (unsupported .union s!"UNION exceeds the {maxTopLevelUnionArms}-arm query limit")
          else
            unionSeparators query rounds separator.stop delimiters separators
        else
          unionSeparators query rounds stop delimiters separators
      else
        unionSeparators query rounds (index + 1) delimiters separators

/-- `TopLevelUnion`. -/
structure TopLevelUnion where
  arms : List QueryText
  unionAll : Bool
  deriving DecidableEq

/-- The arms that the separators cut `query` into, from `start` on. -/
def unionArms (query : QueryText) : Nat → List UnionSeparator → Except GraphError (List QueryText)
  | start, [] =>
    let finalArm := trim (query.drop start)
    if finalArm.isEmpty then .error (parseError "UNION requires a query after it")
    else .ok [finalArm]
  | start, separator :: separators =>
    let arm := trim ((query.drop start).take (separator.start - start))
    if arm.isEmpty then .error (parseError "UNION requires a query before it")
    else do
      let arms ← unionArms query separator.stop separators
      return arm :: arms

/-- `split_top_level_union`. -/
def splitTopLevelUnion (query : QueryText) : Except GraphError (Option TopLevelUnion) := do
  match ← unionSeparators query query.length 0 [] [] with
  | [] => return none
  | first :: others =>
    refuseIf (others.any (·.unionAll != first.unionAll))
      (unsupported .union "mixing UNION and UNION ALL is not executable in Query engine")
    let arms ← unionArms query 0 (first :: others)
    return some ⟨arms, first.unionAll⟩

-- A separator inside a comment or a quoted name does not split; a top-level one does.
example :
    splitTopLevelUnion "MATCH (n) /* UNION */ RETURN n".toList = .ok none ∧
      splitTopLevelUnion "RETURN 1 union all RETURN 2".toList =
        .ok (some ⟨["RETURN 1".toList, "RETURN 2".toList], true⟩) := by
  decide +kernel

end HydraDb
