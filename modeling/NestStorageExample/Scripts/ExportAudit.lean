import NestStorageExample.Scripts.ExportLists
import NestStorageExample.Text.Segments

/-! The export audit: every public name of the library has to stand in a source file of the
apps. -/
namespace NestStorageExample.Scripts
open Text Storage

/-- The entries of a directory, one after another. -/
inductive Listing where
  | done
  | file (name text : JsString) (rest : Listing)
  | directory (name : JsString) (inner rest : Listing)

structure SourceFile where
  path : JsString
  text : JsString

def skipDirs : List JsString :=
  [js "node_modules", js ".next", js "dist", js "coverage", js ".stryker-tmp", js "reports", js "test-results",
    js "playwright-report"]

def sourceEndings : List JsString := [js ".ts", js ".tsx"]

def testEndings : List JsString :=
  [js ".spec.ts", js ".spec.tsx", js ".test.ts", js ".test.tsx", js ".e2e-spec.ts", js ".e2e-spec.tsx"]

/-- A `.ts` or `.tsx` file that is neither a declaration file nor a test. -/
def isDemoSource (name : JsString) : Bool :=
  sourceEndings.any (·.isSuffixOf name) && !(js ".d.ts").isSuffixOf name && !testEndings.any (·.isSuffixOf name)

def collectSourceFiles (dir : JsString) : Listing → List SourceFile → List SourceFile
  | .done, out => out
  | .directory name inner rest, out =>
    collectSourceFiles dir rest
      (if skipDirs.contains name then out else collectSourceFiles (joinSlash [dir, name]) inner out)
  | .file name text rest, out =>
    collectSourceFiles dir rest (if isDemoSource name then out ++ [⟨joinSlash [dir, name], text⟩] else out)

def libraryDts : List JsString :=
  [js "../nest-storage/dist/server/index.d.ts", js "../nest-storage/dist/shared/index.d.ts"]

def sourceRoot : JsString := js "apps"

/-- The own keys of `IGNORE`. -/
def ignore : List JsString := []

/-- The keys that every plain object inherits. -/
def inheritedKeys : List JsString :=
  [js "constructor", js "__defineGetter__", js "__defineSetter__", js "hasOwnProperty", js "__lookupGetter__",
    js "__lookupSetter__", js "isPrototypeOf", js "propertyIsEnumerable", js "toString", js "valueOf", js "__proto__",
    js "toLocaleString"]

/-- `name in IGNORE` -/
def inIgnore (name : JsString) : Bool := ignore.contains name || inheritedKeys.contains name

def backslash : CodeUnit := 0x5C

def isSyntaxUnit (u : CodeUnit) : Bool := (js ".*+?^$\x7b\x7d()|[]\\").contains u

def escapeRegExp (value : JsString) : JsString := value.flatMap fun u => if isSyntaxUnit u then [backslash, u] else [u]

/-- The text that a pattern of literal code units matches. -/
def readLiteral : JsString → Option JsString
  | [] => some []
  | [u] => if isSyntaxUnit u then none else some [u]
  | u :: v :: pattern =>
    if u = backslash then if isSyntaxUnit v then (readLiteral pattern).map (v :: ·) else none
    else if isSyntaxUnit u then none else (readLiteral (v :: pattern)).map (u :: ·)

/-- The test of the pattern between two `\b`. -/
def referenced (name corpus : JsString) : Bool :=
  ((readLiteral (escapeRegExp name)).map fun word => wordFound word none corpus).getD false

def newline : CodeUnit := 0x0A

def undemonstrated (declarations : List JsString) (corpus : JsString) : List JsString :=
  ((declarations.flatMap extractExports).eraseDups.filter fun name =>
    !inIgnore name && !referenced name corpus).insertionSort
    keyLe

def corpusOf (apps : Listing) : JsString :=
  [newline].intercalate ((collectSourceFiles sourceRoot apps []).map SourceFile.text)

/-- The exit code. A library file that is missing ends the run at once. -/
def main (readLibrary : JsString → Option JsString) (apps : Listing) : Nat :=
  match libraryDts.mapM readLibrary with
  | none => 1
  | some declarations => if 0 < (undemonstrated declarations (corpusOf apps)).length then 1 else 0

/-- The repository beside this one, once the library is built. -/
def builtLibrary (server shared : JsString) (path : JsString) : Option JsString :=
  (libraryDts.zip [server, shared]).lookup path

/-! What the audit promises. -/

/-- A file of that name and text, in no directory that is skipped. -/
inductive Reaches (name text : JsString) : Listing → Prop where
  | here (rest : Listing) : Reaches name text (.file name text rest)
  | pastFile (other otherText : JsString) {rest : Listing} (h : Reaches name text rest) :
    Reaches name text (.file other otherText rest)
  | pastDirectory (dir : JsString) (inner : Listing) {rest : Listing} (h : Reaches name text rest) :
    Reaches name text (.directory dir inner rest)
  | inside (dir : JsString) {inner : Listing} (rest : Listing) (hdir : dir ∉ skipDirs) (h : Reaches name text inner) :
    Reaches name text (.directory dir inner rest)

def IsSource (apps : Listing) (text : JsString) : Prop := ∃ name, Reaches name text apps ∧ isDemoSource name = true

variable (alphabet : Alphabet)

/-- No identifier goes on before or behind it. -/
def StandsWhole (name text : JsString) : Prop :=
  ∃ front back, text = front ++ (name ++ back) ∧ (∀ cp ∈ (codePoints front).getLast?, alphabet.part cp = false) ∧
    ∀ cp ∈ (codePoints back).head?, alphabet.part cp = false

def IsDemonstrated (apps : Listing) (name : JsString) : Prop :=
  ∃ text, IsSource apps text ∧ StandsWhole alphabet name text

variable {alphabet}

structure AuditMissesNothing (server shared : DeclarationFile alphabet) (apps : Listing) : Prop where
  fromServer : ExtractsPublicNames server
  fromShared : ExtractsPublicNames shared
  gate : main (builtLibrary server.text shared.text) apps = 0 → ∀ name, server.IsPublic name ∨ shared.IsPublic name →
    name ∉ ignore → IsDemonstrated alphabet apps name

/-- Between two ASCII boundaries an identifier goes on: `$` and letters outside ASCII are no
part of a word. -/
def StandsInside (alphabet : Alphabet) (name text : JsString) : Prop :=
  ∃ front back, text = front ++ (name ++ back) ∧ StandsBetween name front back ∧
    ((∃ cp ∈ (codePoints front).getLast?, alphabet.part cp = true) ∨
      ∃ cp ∈ (codePoints back).head?, alphabet.part cp = true)

/-- A name that is no whole identifier anywhere is let through as a key that every object
inherits, or for a place inside a longer identifier. -/
structure SlipsThrough (alphabet : Alphabet) (apps : Listing) (name : JsString) : Prop where
  listed : name ∉ ignore
  absent : ¬ IsDemonstrated alphabet apps name
  excused : name ∈ inheritedKeys ∨ ∃ text, IsSource apps text ∧ StandsInside alphabet name text

/-- Neither exempt nor between boundaries anywhere: what makes the audit fail. -/
structure IsCaught (apps : Listing) (name : JsString) : Prop where
  listed : name ∉ ignore ∧ name ∉ inheritedKeys
  absent : ∀ text, IsSource apps text → wordFound name none text = false

structure NothingSlips (server shared : DeclarationFile alphabet) (apps : Listing) : Prop where
  fromServer : SameNamesInside server
  fromShared : SameNamesInside shared
  caught : ∀ name, server.IsPublic name ∨ shared.IsPublic name → SlipsThrough alphabet apps name →
    ∃ other, (server.IsPublic other ∨ shared.IsPublic other) ∧ IsCaught apps other

/-! What is searched. -/

theorem collectSourceFiles_append (dir : JsString) (listing : Listing) (out : List SourceFile) :
    collectSourceFiles dir listing out = out ++ collectSourceFiles dir listing [] := by
  induction listing generalizing dir out with
  | done => exact (List.append_nil out).symm
  | file name text rest ih =>
    rw [collectSourceFiles, collectSourceFiles]
    split
    · rw [ih, ih dir ([] ++ _), List.nil_append, List.append_assoc]
    · exact ih dir out
  | directory name inner rest ihInner ihRest =>
    rw [collectSourceFiles, collectSourceFiles]
    split
    · exact ihRest dir out
    · rw [ihRest, ihRest dir (collectSourceFiles _ inner []), ihInner, List.append_assoc]

theorem isSource_done (text : JsString) : ¬ IsSource .done text := by
  rintro ⟨name, hreaches, -⟩
  cases hreaches

theorem isSource_file (name other : JsString) (rest : Listing) (text : JsString) :
    IsSource (.file name other rest) text ↔ (isDemoSource name = true ∧ other = text) ∨ IsSource rest text := by
  constructor
  · rintro ⟨found, hreaches, hsource⟩
    cases hreaches with
    | here => exact Or.inl ⟨hsource, rfl⟩
    | pastFile _ _ hreaches => exact Or.inr ⟨found, hreaches, hsource⟩
  · rintro (⟨hsource, rfl⟩ | ⟨found, hreaches, hsource⟩)
    · exact ⟨name, .here rest, hsource⟩
    · exact ⟨found, .pastFile name other hreaches, hsource⟩

theorem isSource_directory (name : JsString) (inner rest : Listing) (text : JsString) :
    IsSource (.directory name inner rest) text ↔ (name ∉ skipDirs ∧ IsSource inner text) ∨ IsSource rest text := by
  constructor
  · rintro ⟨found, hreaches, hsource⟩
    cases hreaches with
    | pastDirectory _ _ hreaches => exact Or.inr ⟨found, hreaches, hsource⟩
    | inside _ _ hdir hreaches => exact Or.inl ⟨hdir, found, hreaches, hsource⟩
  · rintro (⟨hdir, found, hreaches, hsource⟩ | ⟨found, hreaches, hsource⟩)
    · exact ⟨found, .inside name rest hdir hreaches, hsource⟩
    · exact ⟨found, .pastDirectory name inner hreaches, hsource⟩

/-- The texts that are read are those of the sources. -/
theorem mem_texts_iff (dir : JsString) (listing : Listing) (text : JsString) :
    text ∈ (collectSourceFiles dir listing []).map SourceFile.text ↔ IsSource listing text := by
  induction listing generalizing dir with
  | done => exact iff_of_false List.not_mem_nil (isSource_done text)
  | file name other rest ih =>
    rw [collectSourceFiles, collectSourceFiles_append, List.map_append, List.mem_append, ih, isSource_file]
    refine or_congr_left ?_
    split
    · rename_i hsource
      rw [List.nil_append, List.map_singleton, List.mem_singleton, and_iff_right hsource, eq_comm]
    · rename_i hsource
      exact iff_of_false List.not_mem_nil fun h => hsource h.1
  | directory name inner rest ihInner ihRest =>
    rw [collectSourceFiles, collectSourceFiles_append, List.map_append, List.mem_append, ihRest, isSource_directory]
    refine or_congr_left ?_
    split
    · rename_i hskip
      exact iff_of_false List.not_mem_nil fun h => h.1 (List.contains_iff_mem.mp hskip)
    · rename_i hskip
      rw [ihInner, and_iff_right fun hmem => hskip (List.contains_iff_mem.mpr hmem)]

theorem readLiteral_cons {u : CodeUnit} (h : isSyntaxUnit u = false) (pattern : JsString) :
    readLiteral (u :: pattern) = (readLiteral pattern).map (u :: ·) := by
  have hslash : u ≠ backslash := by
    rintro rfl
    exact absurd h (by decide)
  cases pattern with
  | nil => simp [readLiteral, h]
  | cons v pattern => rw [readLiteral, if_neg hslash, h, if_neg Bool.false_ne_true]

/-- An escaped text is a pattern for that text. -/
theorem readLiteral_escapeRegExp (value : JsString) : readLiteral (escapeRegExp value) = some value := by
  induction value with
  | nil => rfl
  | cons u value ih =>
    unfold escapeRegExp at ih ⊢
    rw [List.flatMap_cons]
    split
    · rename_i hsyntax
      rw [List.cons_append, List.singleton_append, readLiteral, if_pos rfl, if_pos hsyntax, ih]
      rfl
    · rename_i hplain
      rw [List.singleton_append, readLiteral_cons (Bool.eq_false_of_not_eq_true hplain), ih]
      rfl

theorem referenced_eq (name corpus : JsString) : referenced name corpus = wordFound name none corpus := by
  rw [referenced, readLiteral_escapeRegExp]
  rfl

theorem newline_not_mem (name : Identifier alphabet) : newline ∉ name.text := by
  intro hmem
  exact absurd (name.solid hmem).1 (by decide)

/-- Joining the files finds what stands in one of them. -/
theorem referenced_iff (name : Identifier alphabet) (apps : Listing) :
    referenced name.text (corpusOf apps) = true ↔ ∃ text, IsSource apps text ∧ wordFound name.text none text = true := by
  rw [referenced_eq, corpusOf, wordFound_intercalate (newline_not_mem name) name.text_ne_nil (by decide)]
  exact exists_congr fun text => and_congr_left fun _ => mem_texts_iff sourceRoot apps text

theorem inIgnore_iff (name : JsString) : inIgnore name = true ↔ name ∈ ignore ∨ name ∈ inheritedKeys := by
  rw [inIgnore, Bool.or_eq_true, List.contains_iff_mem, List.contains_iff_mem]

theorem builtLibrary_reads (server shared : JsString) :
    libraryDts.mapM (builtLibrary server shared) = some [server, shared] := rfl

theorem mem_undemonstrated (server shared corpus name : JsString) : name ∈ undemonstrated [server, shared] corpus ↔
    (name ∈ extractExports server ∨ name ∈ extractExports shared) ∧
      ¬ (inIgnore name = true ∨ referenced name corpus = true) := by
  rw [undemonstrated, List.mem_insertionSort, List.mem_filter, List.mem_eraseDups, List.mem_flatMap]
  simp only [List.mem_pair, exists_eq_or_imp, exists_eq_left, Bool.and_eq_true, Bool.not_eq_true', not_or,
    Bool.not_eq_true]

/-- The audit passes once every name it took is exempt or found. -/
theorem main_eq_zero_iff (server shared : JsString) (apps : Listing) : main (builtLibrary server shared) apps = 0 ↔
    ∀ name, name ∈ extractExports server ∨ name ∈ extractExports shared →
      inIgnore name = true ∨ referenced name (corpusOf apps) = true := by
  have hmain : main (builtLibrary server shared) apps =
      if 0 < (undemonstrated [server, shared] (corpusOf apps)).length then 1 else 0 := by
    rw [main, builtLibrary_reads]
  have hempty : main (builtLibrary server shared) apps = 0 ↔ undemonstrated [server, shared] (corpusOf apps) = [] := by
    rw [hmain, ← List.length_eq_zero_iff]
    split <;> omega
  rw [hempty, List.eq_nil_iff_forall_not_mem]
  refine forall_congr' fun name => ?_
  rw [mem_undemonstrated, not_and, not_not]

/-- A word that is found and stands nowhere whole stands inside a longer identifier. -/
theorem standsInside_of_found {name text : JsString} (hfound : wordFound name none text = true)
    (hwhole : ¬ StandsWhole alphabet name text) : StandsInside alphabet name text := by
  obtain ⟨front, back, htext, hbetween⟩ := (wordFound_iff name text).mp hfound
  refine ⟨front, back, htext, hbetween, ?_⟩
  by_contra hends
  rw [not_or] at hends
  refine hwhole ⟨front, back, htext, fun cp hcp => ?_, fun cp hcp => ?_⟩
  · exact Bool.eq_false_of_not_eq_true fun hpart => hends.1 ⟨cp, hcp, hpart⟩
  · exact Bool.eq_false_of_not_eq_true fun hpart => hends.2 ⟨cp, hcp, hpart⟩

section Gate
variable {server shared : DeclarationFile alphabet} {apps : Listing}

theorem identifier_of_public {name : JsString} (h : server.IsPublic name ∨ shared.IsPublic name) :
    ∃ identifier : Identifier alphabet, name = identifier.text := by
  rcases h with ⟨item, -, rfl⟩ | ⟨item, -, rfl⟩
  · exact item.exported_eq
  · exact item.exported_eq

/-- What makes the audit fail is exactly what it neither exempts nor finds. -/
theorem isCaught_iff (name : Identifier alphabet) : IsCaught apps name.text ↔
    ¬ (inIgnore name.text = true ∨ referenced name.text (corpusOf apps) = true) := by
  rw [inIgnore_iff, referenced_iff]
  constructor
  · rintro ⟨⟨hignore, hinherited⟩, habsent⟩ ((hmem | hmem) | ⟨text, hsource, hfound⟩)
    · exact hignore hmem
    · exact hinherited hmem
    · rw [habsent text hsource] at hfound
      cases hfound
  · intro h
    refine ⟨⟨fun hmem => h (Or.inl (Or.inl hmem)), fun hmem => h (Or.inl (Or.inr hmem))⟩, fun text hsource => ?_⟩
    exact Bool.eq_false_of_not_eq_true fun hfound => h (Or.inr ⟨text, hsource, hfound⟩)

theorem gate_of_caught (hserver : ExtractsPublicNames server) (hshared : ExtractsPublicNames shared)
    (hcaught : ∀ name, server.IsPublic name ∨ shared.IsPublic name → SlipsThrough alphabet apps name →
      ∃ other, (server.IsPublic other ∨ shared.IsPublic other) ∧ IsCaught apps other)
    (hpass : main (builtLibrary server.text shared.text) apps = 0) {name : JsString}
    (hpublic : server.IsPublic name ∨ shared.IsPublic name) (hlisted : name ∉ ignore) :
    IsDemonstrated alphabet apps name := by
  have hall (other : JsString) (hother : server.IsPublic other ∨ shared.IsPublic other) :
      inIgnore other = true ∨ referenced other (corpusOf apps) = true := by
    rw [← hserver.exact, ← hshared.exact] at hother
    exact (main_eq_zero_iff _ _ _).mp hpass other hother
  by_contra habsent
  obtain ⟨identifier, rfl⟩ := identifier_of_public hpublic
  have hexcused : identifier.text ∈ inheritedKeys ∨
      ∃ text, IsSource apps text ∧ StandsInside alphabet identifier.text text := by
    rcases hall _ hpublic with hignore | hfound
    · exact Or.inl (((inIgnore_iff _).mp hignore).resolve_left hlisted)
    · obtain ⟨text, hsource, hfound⟩ := (referenced_iff identifier apps).mp hfound
      exact Or.inr ⟨text, hsource, standsInside_of_found hfound fun hwhole => habsent ⟨text, hsource, hwhole⟩⟩
  obtain ⟨other, hother, hcaught⟩ := hcaught _ hpublic ⟨hlisted, habsent, hexcused⟩
  obtain ⟨identifier, rfl⟩ := identifier_of_public hother
  exact (isCaught_iff identifier).mp hcaught (hall _ hother)

theorem caught_of_gate (hserver : ExtractsPublicNames server) (hshared : ExtractsPublicNames shared)
    (hgate : main (builtLibrary server.text shared.text) apps = 0 → ∀ name,
      server.IsPublic name ∨ shared.IsPublic name → name ∉ ignore → IsDemonstrated alphabet apps name)
    {name : JsString} (hpublic : server.IsPublic name ∨ shared.IsPublic name) (hslips : SlipsThrough alphabet apps name) :
    ∃ other, (server.IsPublic other ∨ shared.IsPublic other) ∧ IsCaught apps other := by
  by_contra hnone
  apply hslips.absent
  refine hgate ((main_eq_zero_iff _ _ _).mpr fun other hother => ?_) name hpublic hslips.listed
  rw [hserver.exact, hshared.exact] at hother
  obtain ⟨identifier, rfl⟩ := identifier_of_public hother
  by_contra hmissed
  exact hnone ⟨_, hother, (isCaught_iff identifier).mpr hmissed⟩

end Gate

/-- The audit keeps its promise where the names inside the library are the public ones and no
absent name slips through. -/
theorem audit_misses_nothing_iff (server shared : DeclarationFile alphabet) (apps : Listing) :
    AuditMissesNothing server shared apps ↔ NothingSlips server shared apps := by
  constructor
  · rintro ⟨hserver, hshared, hgate⟩
    refine ⟨(extracts_publicNames_iff server).mp hserver, (extracts_publicNames_iff shared).mp hshared, ?_⟩
    exact fun name hpublic hslips => caught_of_gate hserver hshared hgate hpublic hslips
  · rintro ⟨hserver, hshared, hcaught⟩
    have hserver := (extracts_publicNames_iff server).mpr hserver
    have hshared := (extracts_publicNames_iff shared).mpr hshared
    exact ⟨hserver, hshared, fun hpass name hpublic => gate_of_caught hserver hshared hcaught hpass hpublic⟩

/-! In plain code, where identifiers are words, only the inherited keys are left to slip through. -/

theorem isWordUnit_ascii {u : CodeUnit} (h : isWordUnit u = true) : u.toNat < 0x80 := by
  simp only [isWordUnit, Bool.or_eq_true, Bool.and_eq_true, decide_eq_true_eq, beq_iff_eq] at h
  omega

/-- Every identifier in it is made of word characters. -/
def PlainCode (alphabet : Alphabet) (text : JsString) : Prop :=
  ∀ cp ∈ codePoints text, alphabet.part cp = true → ∃ u, isWordUnit u = true ∧ u.toNat = cp

theorem getLast?_of_codePoints {front : JsString} {u : CodeUnit} (h : (codePoints front).getLast? = some u.toNat) :
    front.getLast? = some u := by
  obtain ⟨cps, hcps⟩ := List.getLast?_eq_some_iff.mp h
  rw [← utf16_codePoints front, hcps, List.flatMap_append, List.flatMap_singleton, utf16_toNat]
  exact List.getLast?_concat

theorem head?_of_codePoints {back : JsString} {u : CodeUnit} (h : (codePoints back).head? = some u.toNat) :
    back.head? = some u := by
  obtain ⟨cps, hcps⟩ := List.head?_eq_some_iff.mp h
  rw [← utf16_codePoints back, hcps, List.flatMap_cons, utf16_toNat]
  rfl

theorem not_boundary {u v : CodeUnit} (hu : isWordUnit u = true) (hv : isWordUnit v = true) :
    isBoundary (some u) (some v) = false := by
  simp [isBoundary, hu, hv]

theorem not_standsInside_of_plain {name text : JsString} (hne : name ≠ []) (hname : ∀ u ∈ name, isWordUnit u = true)
    (hplain : PlainCode alphabet text) : ¬ StandsInside alphabet name text := by
  rintro ⟨front, back, rfl, ⟨hbefore, hbehind⟩, ⟨cp, hcp, hpart⟩ | ⟨cp, hcp, hpart⟩⟩
  · obtain ⟨u, name, rfl⟩ := List.exists_cons_of_ne_nil hne
    have hu := hname u List.mem_cons_self
    have hpoints := codePoints_append_ascii (isWordUnit_ascii hu) front (name ++ back)
    have hmem : cp ∈ codePoints (front ++ (u :: name ++ back)) := by
      rw [List.cons_append, hpoints]
      exact List.mem_append_left _ (List.mem_of_getLast? hcp)
    obtain ⟨v, hv, rfl⟩ := hplain cp hmem hpart
    rw [getLast?_of_codePoints hcp, List.cons_append, List.head?_cons, not_boundary hv hu] at hbefore
    cases hbefore
  · obtain ⟨front', u, rfl⟩ : ∃ front' u, name = front' ++ [u] :=
      ⟨name.dropLast, name.getLast hne, (List.dropLast_append_getLast hne).symm⟩
    have hu := hname u (List.mem_append_right _ List.mem_cons_self)
    have hpoints := codePoints_append_ascii (isWordUnit_ascii hu) (front ++ front') back
    have hmem : cp ∈ codePoints (front ++ (front' ++ [u] ++ back)) := by
      rw [← List.append_assoc, ← List.append_assoc, List.append_assoc, List.singleton_append, hpoints]
      exact List.mem_append_right _ (List.mem_cons_of_mem _ (List.mem_of_mem_head? hcp))
    obtain ⟨v, hv, rfl⟩ := hplain cp hmem hpart
    rw [head?_of_codePoints hcp, ← List.append_assoc, List.getLast?_concat, not_boundary hu hv] at hbehind
    cases hbehind

/-- Plain sources and public words that no object inherits leave the renames as the only risk. -/
theorem nothingSlips_of_plain {server shared : DeclarationFile alphabet} {apps : Listing}
    (hserver : SameNamesInside server) (hshared : SameNamesInside shared)
    (hnames : ∀ name, server.IsPublic name ∨ shared.IsPublic name →
      (∀ u ∈ name, isWordUnit u = true) ∧ name ∉ inheritedKeys)
    (hsources : ∀ text, IsSource apps text → PlainCode alphabet text) : NothingSlips server shared apps := by
  refine ⟨hserver, hshared, fun name hpublic hslips => ?_⟩
  obtain ⟨hwords, hinherited⟩ := hnames name hpublic
  obtain ⟨identifier, rfl⟩ := identifier_of_public hpublic
  obtain ⟨text, hsource, hinside⟩ := hslips.excused.resolve_left hinherited
  exact absurd hinside (not_standsInside_of_plain identifier.text_ne_nil hwords (hsources text hsource))

/-- Identifiers of ASCII letters, digits, the underscore and `$`. -/
def asciiAlphabet : Alphabet where
  part cp := cp < 0x80 && (isWordUnit (UInt16.ofNat cp) || cp == 0x24)
  ascii cp hcp := by simp [hcp]
  scalar cp hpart := by
    rw [Bool.and_eq_true, decide_eq_true_eq] at hpart
    unfold IsScalar IsSurrogate
    omega
  notSpace u hspace := by
    simp only [isSpace, List.contains_eq_mem, Bool.or_eq_true, Bool.and_eq_true, decide_eq_true_eq, List.mem_cons,
      List.not_mem_nil, or_false] at hspace
    simp only [isWordUnit, UInt16.ofNat_toNat, Bool.and_eq_false_iff, Bool.or_eq_false_iff, decide_eq_false_iff_not,
      beq_eq_false_iff_ne]
    omega

def oneSpace : Gap := ⟨⟨[0x20], List.all_eq_true.mp rfl⟩, List.cons_ne_nil _ _⟩

/-- A file of one list with one item. -/
def oneExport (item : ExportItem alphabet) : DeclarationFile alphabet :=
  ⟨[(⟨[], by decide⟩, ⟨oneSpace.toBlanks, [⟨oneSpace.toBlanks, some item, oneSpace.toBlanks⟩]⟩)], ⟨js ";", by decide⟩⟩

def letterA : Identifier asciiAlphabet := ⟨[0x41], by decide, by decide⟩

def letterB : Identifier asciiAlphabet := ⟨[0x42], by decide, by decide⟩

/-- `export { A as B };` -/
def renamed : DeclarationFile asciiAlphabet := oneExport ⟨none, letterA, some ⟨oneSpace, oneSpace, letterB⟩⟩

/-- `export { A };` -/
def unrenamed : DeclarationFile asciiAlphabet := oneExport ⟨none, letterA, none⟩

/-- `export { toString };` -/
def inherited : DeclarationFile asciiAlphabet :=
  oneExport ⟨none, ⟨(js "toString").map UInt16.toNat, by decide, by decide⟩, none⟩

/-- Only a longer identifier holds the name. -/
def dollarApps : Listing := .file (js "page.ts") (js "let $A = 1") .done

theorem oneExport_public (item : ExportItem alphabet) (name : JsString) :
    (oneExport item).IsPublic name ↔ item.exported = name := by
  simp [oneExport, DeclarationFile.IsPublic, DeclarationFile.items]

theorem dollar_absent : ¬ IsDemonstrated asciiAlphabet dollarApps (js "A") := by
  rintro ⟨text, ⟨name, hreaches, -⟩, front, back, htext, hbefore, -⟩
  obtain rfl : text = js "let $A = 1" := by
    cases hreaches with
    | here => rfl
    | pastFile _ _ hreaches => cases hreaches
  have hplace : ((js "let $A = 1").drop front.length).head? = some 0x41 := by
    rw [htext, List.drop_left]
    rfl
  have hlength : front.length < 10 := by
    have hlength := congrArg List.length htext
    rw [List.length_append, List.length_append, show (js "let $A = 1").length = 10 from rfl,
      show (js "A").length = 1 from rfl] at hlength
    omega
  have honly : ∀ n < 10, ((js "let $A = 1").drop n).head? = some 0x41 → n = 5 := by decide
  have hfront : front = js "let $" := by
    have htake : (js "let $A = 1").take front.length = front := by
      rw [htext, List.take_left]
    rw [← htake, honly _ hlength hplace]
    decide
  have hdollar := hbefore 0x24 (by rw [hfront]; decide)
  exact absurd hdollar (by decide)

/-- A renamed export, one called like an inherited key, and one that only ends a longer
identifier. -/
theorem audit_misses :
    renamed.text = js "export \x7b A as B \x7d;" ∧ ¬ AuditMissesNothing renamed unrenamed .done ∧
      ¬ AuditMissesNothing inherited inherited .done ∧ ¬ AuditMissesNothing unrenamed unrenamed dollarApps := by
  refine ⟨by decide, fun h => ?_, fun h => ?_, fun h => ?_⟩
  · have hname : letterB.text ∈ extractExports renamed.text :=
      (h.fromServer.exact _).mpr ((oneExport_public _ _).mpr rfl)
    exact absurd hname (by decide)
  · obtain ⟨text, ⟨name, hreaches, -⟩, -⟩ :=
      h.gate (by decide) (js "toString") (Or.inl ((oneExport_public _ _).mpr (by decide))) List.not_mem_nil
    cases hreaches
  · exact dollar_absent (h.gate (by decide) (js "A") (Or.inl ((oneExport_public _ _).mpr rfl)) List.not_mem_nil)

end NestStorageExample.Scripts
