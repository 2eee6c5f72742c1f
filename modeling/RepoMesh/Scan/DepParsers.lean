/-
# Manifest parsers

`dep_parsers.py`: what a build manifest declares about itself and its dependencies. Which characters
beyond ASCII are word characters is left to an instance of `WordChars`.
-/
import RepoMesh.Foundation.Keyed
import RepoMesh.Foundation.Patterns
import RepoMesh.Foundation.Text

namespace RepoMesh
namespace Scan

open Text Patterns

/-! ## Declarations -/

/-- One dependency with its coordinates. -/
structure BuildDep where
  name : String
  version : String := ""
  groupId : String := ""
  managed : Bool := false
  deriving DecidableEq

/-- The identifier by which other repositories refer to the dependency. -/
def BuildDep.coordinates (dep : BuildDep) : String :=
  if dep.groupId ≠ "" then dep.groupId ++ ":" ++ dep.name else dep.name

/-- What one manifest declares. -/
structure BuildFileResult where
  identity : Option String := none
  deps : List BuildDep := []
  managed : List BuildDep := []
  deriving DecidableEq

/-! ## Gradle -/

/-- The characters of `\w`. -/
class WordChars where
  isWord : Char → Bool
  ascii : ∀ c : Char, c.toNat < 128 → isWord c = (c.isAlphanum || c == '_')
  space : ∀ c : Char, isSpace c = true → isWord c = false

/-- `[A-Za-z0-9_]`. -/
def asciiWords : WordChars where
  isWord c := c.isAlphanum || c == '_'
  ascii _ _ := rfl
  space c hc := by
    have hcode : c.toNat ∈ spaceCodes := by simpa [isSpace] using hc
    have hall : ∀ code ∈ spaceCodes,
        ((Char.ofNat code).isAlphanum || Char.ofNat code == '_') = false := by decide
    simpa using hall c.toNat hcode

/-- `['"]`. -/
def isQuote (c : Char) : Bool := c.toNat == 34 || c.toNat == 39

/-- `[^'"$]`. -/
def isPlain (c : Char) : Bool := !isQuote c && c != '$'

section Gradle

variable [WordChars]

/-- `dependencies\s*\{([^}]*)\}`. -/
def gradleBlock : Pattern Char :=
  chain [literal "dependencies".toList, many isSpace, one (· == Char.ofNat 123),
    group (many (· != Char.ofNat 125)), one (· == Char.ofNat 125)]

/-- `_GRADLE_COORD`. -/
def gradleCoord : Pattern Char :=
  chain [group (many1 WordChars.isWord), many isSpace, maybe (one (· == '(')), many isSpace,
    one isQuote,
    group (chain [many1 isPlain, one (· == ':'), many1 isPlain, one (· == ':'), many1 isPlain]),
    one isQuote]

/-- `_GRADLE_NAMED`. -/
def gradleNamed : Pattern Char :=
  chain [group (many1 WordChars.isWord), many isSpace, maybe (chain [one (· == '('), many isSpace]),
    literal "group".toList, many isSpace, one (· == ':'), many isSpace,
    one isQuote, group (many1 fun c => !isQuote c), one isQuote, many isSpace, one (· == ','),
    many isSpace, literal "name".toList, many isSpace, one (· == ':'), many isSpace,
    one isQuote, group (many1 fun c => !isQuote c), one isQuote]

/-- `_GRADLE_IGNORED_CONFIG_PREFIXES`. -/
def gradleIgnoredConfigPrefixes : List String := ["test", "androidTest", "testFixtures"]

/-- `_is_test_config`. -/
def isTestConfig (config : String) : Bool :=
  let lowered := lower config
  gradleIgnoredConfigPrefixes.any fun start => startsWith lowered start

/-- `value.split(":")`. -/
def splitColons (value : List Char) : List String := (value.splitOn ':').map String.ofList

/-- The dependency of a coordinates text. -/
def gradleDep (coordinates : List Char) : BuildDep :=
  let parts := splitColons coordinates
  { groupId := parts.getD 0 ""
    name := parts.getD 1 (String.ofList coordinates)
    version := parts.getD 2 "" }

/-- The key under which a dependency is taken once. -/
def gradleKey (dep : BuildDep) : String := lower (dep.groupId ++ ":" ++ dep.name)

/-- `_add_gradle_dep`, on the dependencies and the keys that were seen. -/
def addGradleDep (state : List BuildDep × List String) (coordinates : List Char) :
    List BuildDep × List String :=
  let dep := gradleDep coordinates
  if gradleKey dep ∈ state.2 then state else (state.1 ++ [dep], state.2 ++ [gradleKey dep])

/-- The configurations and coordinates the first pattern finds. -/
def coordMatches (block : List Char) : List (List Char × List Char) :=
  (findIter gradleCoord block).filterMap fun groups =>
    match groups with
    | [config, coords] => some (config, coords)
    | _ => none

/-- The configurations and coordinates the second pattern finds. -/
def namedMatches (block : List Char) : List (List Char × List Char) :=
  (findIter gradleNamed block).filterMap fun groups =>
    match groups with
    | [config, group_, name] => some (config, group_ ++ ':' :: name)
    | _ => none

/-- One match. -/
def addGradleMatch (state : List BuildDep × List String) (found : List Char × List Char) :
    List BuildDep × List String :=
  if isTestConfig (String.ofList found.1) then state else addGradleDep state found.2

/-- The blocks of a script. -/
def gradleBlocks (content : List Char) : List (List Char) :=
  (findIter gradleBlock content).flatten

/-- `parse_gradle`. -/
def parseGradle (content : String) : BuildFileResult where
  deps := ((gradleBlocks content.toList).foldl (fun state block =>
    (namedMatches block).foldl addGradleMatch ((coordMatches block).foldl addGradleMatch state))
      ([], [])).1

end Gradle

end Scan
end RepoMesh
