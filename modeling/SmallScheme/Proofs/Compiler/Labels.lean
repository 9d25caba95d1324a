import SmallScheme.Proofs.Assembly.Unambiguous
import SmallScheme.Proofs.Compiler.Resuming

/-!
# Labels of texts that share a builder

Records are numbered by the builder, functions by the compiler that makes them. When several
compilers add to one builder, the labels of records stay apart, and so do those of the functions of
each text; but every text numbers its functions from zero on, so that two texts which both begin
with an integer define one label twice (`labels_shared`, `labels_shared_collide`).
-/

namespace SmallScheme

namespace Assembly

/-- The label that a line defines: what stands in front of the colon at its end. -/
def label? (line : String) : Option String :=
  if line.toList.getLast? = some ':' then some (String.ofList line.toList.dropLast) else none

/-- The labels that a text defines. -/
def labels (text : String) : List String :=
  (linesOfText text).filterMap label?

theorem label?_append_colon (label : String) : label? (label ++ ":") = some label := by
  simp [label?]

theorem label?_of_notMem {line : String} (h : ':' ∉ line.toList) : label? line = none :=
  if_neg fun hlast => h (List.mem_of_getLast? hlast)

/-- A code line defines the same label in its column. -/
theorem label?_formatLine (line : String) : label? (Builder.formatLine line) = label? line := by
  by_cases h : line.toList.getLast? = some ':'
  · rw [Builder.formatLine_of_getLast h]
  · rw [label?, label?, if_neg h, if_neg (mt (Builder.getLast?_formatLine line).mp h)]

/-- The lines of records define the labels of the records. -/
theorem Written.filterMap_label? {data : List Record} {lines : List String}
    (h : Written data lines) : lines.filterMap label? = data.map Record.label := by
  induction h with
  | nil => rfl
  | @cons record directive data lines hdirective _ ih =>
    have hcolon : ':' ∉ ("    " ++ directive).toList := by
      simp [Constant.notMem_of_directive hdirective (Or.inl rfl)]
    rw [List.filterMap_cons_some (label?_append_colon _),
      List.filterMap_cons_none (label?_of_notMem hcolon), ih, List.map_cons]

/-- The labels of a text are those of the code lines, then those of the records. -/
theorem labels_of_build {builder : Builder} {text : String} (h : builder.build = .ok text)
    (hcode : ∀ line ∈ builder.code.toList, IsLine line)
    (hdata : ∀ record ∈ builder.data.toList, IsLine record.label) :
    labels text = builder.code.toList.filterMap label? ++ builder.data.toList.map Record.label := by
  obtain ⟨_, lines, hwritten, rfl⟩ := Builder.build_eq_ok_iff.mp h
  rw [labels, linesOfText_textOfLines (Builder.isLine_of_written hcode hdata hwritten),
    List.filterMap_append, List.filterMap_map, hwritten.filterMap_label?]
  exact congrArg (· ++ _) (List.filterMap_congr fun line _ => label?_formatLine line)

theorem recordLabel_injective : Function.Injective recordLabel := fun _ _ h =>
  Nat.repr_inj.mp ((String.append_right_inj "LC_").mp h)

end Assembly

namespace Compiler

open Assembly

/-- The name of a function has no colon and no line feed. -/
theorem notMem_functionName {c : Char} (hc : c = ':' ∨ c = '\n') (index : Nat) :
    c ∉ (functionName index).toList := by
  have hindex : c ∉ (toString (index : Int)).toList := by
    rcases hc with rfl | rfl <;> exact notMem_toString rfl (by decide) index
  have hstem : c ∉ functionStem.toList := by
    rcases hc with rfl | rfl <;> simp [functionStem]
  exact notMem_append_iff.mpr ⟨hstem, hindex⟩

/-- The lines of a function define its name and no other label. -/
theorem filterMap_label?_functionLines (index : Nat) (value : Int) :
    (functionLines index value).filterMap label? = [functionName index] := by
  have hname := notMem_functionName (Or.inl rfl) index
  have hvalue : ':' ∉ (toString value).toList := notMem_toString rfl (by decide) value
  have hglobal : label? (".global " ++ functionName index) = none :=
    label?_of_notMem (notMem_append_iff.mpr ⟨by simp, hname⟩)
  have htype : label? (".type " ++ functionName index ++ ", @function") = none :=
    label?_of_notMem (notMem_append_iff.mpr ⟨notMem_append_iff.mpr ⟨by simp, hname⟩, by simp⟩)
  have hmove : label? ("movq $" ++ toString value ++ ", %rax") = none :=
    label?_of_notMem (notMem_append_iff.mpr ⟨notMem_append_iff.mpr ⟨by simp, hvalue⟩, by simp⟩)
  have hreturn : label? "ret" = none := label?_of_notMem (by simp)
  rw [functionLines, List.filterMap_cons_none hglobal, List.filterMap_cons_none htype,
    List.filterMap_cons_some (label?_append_colon _), List.filterMap_cons_none hmove,
    List.filterMap_cons_none hreturn, List.filterMap_nil]

theorem isLine_of_mem_functionLines {index : Nat} {value : Int} {line : String}
    (h : line ∈ functionLines index value) : IsLine line := by
  have hname : IsLine (functionName index) := notMem_functionName (Or.inr rfl) index
  have hvalue : IsLine (toString value) := notMem_toString rfl (by decide) value
  simp only [functionLines, List.mem_cons, List.not_mem_nil, or_false] at h
  rcases h with rfl | rfl | rfl | rfl | rfl
  · exact isLine_append_iff.mpr ⟨by simp [IsLine], hname⟩
  · exact isLine_append_iff.mpr
      ⟨isLine_append_iff.mpr ⟨by simp [IsLine], hname⟩, by simp [IsLine]⟩
  · exact isLine_append_iff.mpr ⟨hname, by simp [IsLine]⟩
  · exact isLine_append_iff.mpr
      ⟨isLine_append_iff.mpr ⟨by simp [IsLine], hvalue⟩, by simp [IsLine]⟩
  · simp [IsLine]

/-- The integers in front of the first token that is none. -/
def leadingIntegers : List Lexeme → List Int
  | [] => []
  | lexeme :: rest =>
    match lexeme.integer? with
    | some value => value :: leadingIntegers rest
    | none => []

/-- The first token that is no integer, if it is a float. -/
def stoppingFloats : List Lexeme → List Double
  | [] => []
  | lexeme :: rest =>
    match lexeme.integer? with
    | some _ => stoppingFloats rest
    | none => lexeme.float?.toList

/-- Having added to a builder the functions of integers, numbered from a number on, and the records
of floats. -/
structure Grows (start : Nat) (integers : List Int) (floats : List Double)
    (before after : Builder) : Prop where
  code : after.code.toList = before.code.toList ++ functionsLines start integers
  data : ∀ values, before.data.toList = floatRecords values →
    after.data.toList = floatRecords (values ++ floats)
  excess : after.excess = before.excess

namespace Grows

variable {start : Nat} {integers : List Int} {floats : List Double} {before middle after : Builder}

theorem refl (start : Nat) (builder : Builder) : Grows start [] [] builder builder where
  code := (List.append_nil _).symm
  data values h := by rw [h, List.append_nil]
  excess := rfl

theorem cons {value : Int} (h : Adds (functionLines start value) before middle)
    (hrest : Grows (start + 1) integers floats middle after) :
    Grows start (value :: integers) floats before after where
  code := by rw [hrest.code, h.code, List.append_assoc, functionsLines_cons]
  data values hbefore := hrest.data values (by rw [h.data, hbefore])
  excess := hrest.excess.trans h.excess

theorem store (start : Nat) (value : Double) (builder : Builder) :
    Grows start [] [value] builder (builder.store (.constant (.literal (.float value)))).2 where
  code := (List.append_nil _).symm
  data _ h := data_store_float value h
  excess := rfl

end Grows

/-- A compiler makes the functions of the leading integers, and a record if a float stops it. -/
theorem grows_compileFrom {lexemes : List Lexeme} (hfits : ∀ lexeme ∈ lexemes, lexeme.Fits)
    (compiler : Compiler) :
    Grows compiler.functions (leadingIntegers lexemes) (stoppingFloats lexemes) compiler.builder
      (compileFrom lexemes compiler).2.builder := by
  induction lexemes generalizing compiler with
  | nil => exact .refl _ _
  | cons lexeme rest ih =>
    obtain ⟨hvalue, hrest⟩ := List.forall_mem_cons.mp hfits
    rw [compileFrom, leadingIntegers, stoppingFloats, Lexeme.integer?, Lexeme.float?]
    rcases htoken : lexeme.token with fault | token
    · exact .refl _ _
    · cases token with
      | literal value =>
        cases value with
        | integer value =>
          obtain ⟨made, hmade, hfunctions, hadds⟩ := adds_emitInteger (hvalue value htoken)
            { compiler with
              tokens := { compiler.tokens with pending := rest, position := lexeme.stop } }
          have hmore := ih hrest made
          rw [hfunctions] at hmore
          dsimp only
          rw [hmade]
          exact .cons hadds hmore
        | float value => exact .store _ value _
        | boolean _ | character _ => exact .refl _ _
      | _ => exact .refl _ _

/-- A text, with the mode in which it is scanned. -/
structure Source where
  mode : Mode
  text : List Char

namespace Source

/-- The integers that a text begins with. -/
def integers (source : Source) : List Int :=
  leadingIntegers (lexemes source.mode 0 source.text)

/-- The floats that are stored for a text: one, or none. -/
def floats (source : Source) : List Double :=
  stoppingFloats (lexemes source.mode 0 source.text)

/-- The names of the functions that are made for a text. -/
def names (source : Source) : List String :=
  (List.range source.integers.length).map functionName

/-- What a builder holds once a text was compiled, however that ended. -/
def compile (builder : Builder) (source : Source) : Builder :=
  (ofText source.mode source.text builder).start.2.builder

end Source

/-- What texts leave in a new builder that all of them share, each compiled by a compiler of its
own. -/
def shared (sources : List Source) : Builder :=
  sources.foldl Source.compile .empty

/-- What texts leave in a builder: their functions, each text's numbered from zero on, and their
floats, numbered by the builder. -/
theorem shared_contents (sources : List Source) :
    (shared sources).code.toList =
      sources.flatMap (fun source => functionsLines 0 source.integers) ∧
    (shared sources).data.toList = floatRecords (sources.flatMap Source.floats) ∧
    (shared sources).excess = 0 := by
  induction sources using List.reverseRecOn with
  | nil => exact ⟨rfl, rfl, rfl⟩
  | append_singleton sources source ih =>
    obtain ⟨hcode, hdata, hexcess⟩ := ih
    have hgrows : Grows 0 source.integers source.floats (shared sources)
        (shared (sources ++ [source])) := by
      rw [shared, shared, List.foldl_append]
      exact grows_compileFrom Lexeme.fits_of_mem
        (ofText source.mode source.text (shared sources))
    refine ⟨?_, ?_, hgrows.excess.trans hexcess⟩
    · rw [hgrows.code, hcode, List.flatMap_append, List.flatMap_singleton]
    · rw [hgrows.data _ hdata, List.flatMap_append, List.flatMap_singleton]

/-- The lines of functions define the names of these. -/
theorem filterMap_label?_functionsLines (start : Nat) (values : List Int) :
    (functionsLines start values).filterMap label? =
      (List.range' start values.length).map functionName := by
  induction values generalizing start with
  | nil => rfl
  | cons value values ih =>
    rw [functionsLines_cons, List.filterMap_append, filterMap_label?_functionLines, ih]
    rfl

theorem isLine_of_mem_functionsLines {start : Nat} {values : List Int} {line : String}
    (h : line ∈ functionsLines start values) : IsLine line := by
  obtain ⟨⟨value, index⟩, _, hmem⟩ := List.mem_flatMap.mp h
  exact isLine_of_mem_functionLines hmem

/-- No function is named as a record is labelled. -/
theorem functionName_ne_recordLabel (index other : Nat) :
    functionName index ≠ recordLabel other := by
  intro h
  have hheads := congrArg (fun name : String => name.toList.head?) h
  simp [functionName, functionStem, recordLabel] at hheads

/-- The functions of two texts are named differently just if one of the texts has none. -/
theorem Source.disjoint_names_iff (source other : Source) :
    List.Disjoint source.names other.names ↔ source.integers = [] ∨ other.integers = [] := by
  constructor
  · intro h
    by_contra hne
    have hmem {source : Source} (hsome : source.integers ≠ []) : functionName 0 ∈ source.names :=
      List.mem_map_of_mem (List.mem_range.mpr (List.length_pos_iff.mpr hsome))
    exact h (hmem fun hnone => hne (Or.inl hnone)) (hmem fun hnone => hne (Or.inr hnone))
  · rintro (hnone | hnone)
    · rw [names, hnone]
      exact List.disjoint_nil_left _
    · rw [names, names, hnone]
      exact List.disjoint_nil_right _

/-- A shared builder can always be built. -/
theorem exists_build_shared (sources : List Source) :
    ∃ text, (shared sources).build = .ok text := by
  obtain ⟨_, hdata, hexcess⟩ := shared_contents sources
  exact exists_build_of_floats hexcess hdata

/-- The labels of an assembly are the names of the functions of each text, then the labels of the
records. -/
theorem labels_of_shared {sources : List Source} {text : String}
    (h : (shared sources).build = .ok text) :
    labels text = sources.flatMap Source.names ++
      (List.range (sources.flatMap Source.floats).length).map recordLabel := by
  obtain ⟨hcode, hdata, _⟩ := shared_contents sources
  rw [floatRecords_eq] at hdata
  have hlines : ∀ line ∈ (shared sources).code.toList, IsLine line := by
    intro line hmem
    rw [hcode] at hmem
    obtain ⟨source, _, hmem⟩ := List.mem_flatMap.mp hmem
    exact isLine_of_mem_functionsLines hmem
  have hnames : ∀ record ∈ (shared sources).data.toList, IsLine record.label :=
    fun record hmem => isLine_of_mem_recordsOf (hdata ▸ hmem)
  rw [labels_of_build h hlines hnames, hcode, hdata, List.filterMap_flatMap, map_label_recordsOf,
    List.length_map]
  simp only [filterMap_label?_functionsLines, ← List.range_eq_range']
  rfl

/-- Whatever texts share a builder, and however their compilations end, there is an assembly, which
defines the names of the functions of each text, and then the labels of the records. The records
are labelled differently from each other and from the functions, and the functions of one text are
too. But if two texts begin with an integer, then a label is defined twice. -/
theorem labels_shared (sources : List Source) :
    ∃ text, (shared sources).build = .ok text ∧
      labels text = sources.flatMap Source.names ++
        (List.range (sources.flatMap Source.floats).length).map recordLabel ∧
      ((labels text).Nodup ↔ sources.Pairwise fun source other =>
        source.integers = [] ∨ other.integers = []) := by
  obtain ⟨text, htext⟩ := exists_build_shared sources
  have hlabels := labels_of_shared htext
  refine ⟨text, htext, hlabels, ?_⟩
  have hnames : ∀ source ∈ sources, source.names.Nodup :=
    fun _ _ => List.nodup_range.map functionName_injective
  have hrecords : ((List.range (sources.flatMap Source.floats).length).map recordLabel).Nodup :=
    List.nodup_range.map recordLabel_injective
  have hapart : ∀ name ∈ sources.flatMap Source.names,
      ∀ label ∈ (List.range (sources.flatMap Source.floats).length).map recordLabel,
      name ≠ label := by
    intro name hname label hlabel
    obtain ⟨source, _, hname⟩ := List.mem_flatMap.mp hname
    obtain ⟨index, _, rfl⟩ := List.mem_map.mp hname
    obtain ⟨other, _, rfl⟩ := List.mem_map.mp hlabel
    exact functionName_ne_recordLabel index other
  -- So only functions of different texts may share a name.
  rw [hlabels, List.nodup_append, List.nodup_flatMap,
    List.Pairwise.iff (S := fun source other => source.integers = [] ∨ other.integers = [])
      Source.disjoint_names_iff]
  exact ⟨fun h => h.1.2, fun h => ⟨⟨hnames, h⟩, hrecords, hapart⟩⟩

/-- Two texts of one integer each, compiled into one builder, define the same label. -/
theorem labels_shared_collide :
    let sources : List Source := [⟨.literals, "1".toList⟩, ⟨.literals, "2".toList⟩]
    ∃ text, (shared sources).build = .ok text ∧
      labels text = ["__scheme__anonymous__function__0", "__scheme__anonymous__function__0"] ∧
      ¬ (labels text).Nodup := by
  intro sources
  obtain ⟨text, htext⟩ := exists_build_shared sources
  have hname : functionName 0 = "__scheme__anonymous__function__0" := by with_unfolding_all rfl
  have hlabels : labels text = [functionName 0, functionName 0] :=
    (labels_of_shared htext).trans (by with_unfolding_all rfl)
  rw [hname] at hlabels
  exact ⟨text, htext, hlabels, by rw [hlabels]; decide⟩

end Compiler

end SmallScheme
