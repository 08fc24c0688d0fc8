/-
CodeOutline/Proofs/Python/Failures.lean

What stops the conversion of a module.

`Arises` lists all causes: a blank name, a part that the tree lacks, a docstring that has a field
with a blank argument, and three kinds that have to do with places: a statement without a span, a
node of which it is not known where it begins, and a scope that does not hold its children.  Each
step of the conversion is shown to fail in no other way (`errorsIn_outline`).

So among the failures of a conversion those of docstrings have one cause only (`CausedBy`), and the
other way round only what has to do with places gives failures of places (`isOfPlace`).
-/
import CodeOutline.Proofs.Python.Annotation
import CodeOutline.Proofs.Python.Places

namespace CodeOutline

/-- Whether an argument of an entity is refused for a place. -/
def ArgumentError.isOfPlace : ArgumentError → Bool
  | .lineNotPositive | .columnNotPositive | .offsetNegative => true
  | .spanReversed | .childOutside => true
  | _ => false

namespace Python

open Outcome

/-! ### Causes -/

/-- Whether a failure is that something has no place, or not a place where it can be.  Nothing but
ranges is needed for the conversion of a module. -/
def isOfPlace : Failure → Bool
  | .unmet _ | .noSuchLine => true
  | .argument e => e.isOfPlace
  | .defect d => d.isOfPlace
  | .docstring _ | .noModuleName _ => false

/-- A node whose docstring has a line with a field whose argument is blank. -/
def HasBlankField (n : Node) : Prop :=
  n.isDocumented = true ∧ ∃ first ∈ (n.places "body").head?, ∃ s ∈ statementText? first,
    ∃ line ∈ Docstring.linesOf (String.ofList (Text.cleanMargin s.toList)),
      Docstring.IsBlankField line

/-- Whether a tree can cause a failure: a docstring has to have a field whose argument is blank. -/
def CausedBy (root : Node) : Failure → Prop
  | .docstring f => f = .blankArgument ∧ ∃ n ∈ root.preorder, HasBlankField n
  | _ => True

/-- A node of a tree of which only the beginning is asked for: a statement that consists of a text,
a decorator or a base. -/
inductive IsReferred (root : Node) : Node → Prop
  | text {n : Node} (hn : n ∈ root.preorder) (h : (statementText? n).isSome = true) :
    IsReferred root n
  | reference {n d : Node} (hn : n ∈ root.preorder) (hdefining : n.isDefining = true)
    (hd : d ∈ n.inRole "decorator_list" ∨ d ∈ n.inRole "bases") : IsReferred root d

/-- What can stop the conversion of a tree. -/
inductive Arises (t : LineIndex) (root : Node) : Failure → Prop
  | blank (field : String) : Arises t root (.argument (.blank field))
  /-- The tree lacks something other than a place. -/
  | defect {d : TreeDefect} (h : d.isOfPlace = false) : Arises t root (.defect d)
  | docstring {n : Node} (hn : n ∈ root.preorder) (h : HasBlankField n) :
    Arises t root (.docstring .blankArgument)
  /-- A statement that gives definitions has no span. -/
  | span {n : Node} {e : Failure} (hn : n ∈ root.preorder) (hdefining : n.isDefining = true)
    (h : spanOf t n = .error e) : Arises t root e
  /-- It is not known where a node begins. -/
  | start {n : Node} {e : Failure} (hn : IsReferred root n) (h : startOf t n = .error e) :
    Arises t root e
  /-- A statement that gives definitions has a span in which the scopes to be held do not lie. -/
  | scope {n : Node} {r : Position × Position} {level : ScopeLevel} {children : List Scope}
    {e : ArgumentError} (hn : n ∈ root.preorder) (hdefining : n.isDefining = true)
    (hspan : spanOf t n = .ok r) (hchildren : AreHeld t n children)
    (h : Scope.make level r.1 r.2 children = .error e) : Arises t root (.argument e)

variable {root n : Node} {t : LineIndex}

/-! ### Failures of places -/

theorem isOfPlace_of_make {level : ScopeLevel} {start stop : Position} {children : List Scope}
    {e : ArgumentError} (h : Scope.make level start stop children = .error e) :
    e.isOfPlace = true := by
  rcases Scope.errorsIn_make _ _ _ _ e h with rfl | rfl
  · rfl
  · rfl

theorem errorsIn_offsetOf (line column : Int) :
    ErrorsIn (fun e => isOfPlace e = true) (offsetOf t line column) := by
  unfold offsetOf
  split
  · rintro _ ⟨⟩
    rfl
  · exact errorsIn_ok _

theorem errorsIn_positionAt (offset : Int) :
    ErrorsIn (fun e => isOfPlace e = true) (built (t.positionAt offset)) := by
  refine errorsIn_mapError fun e he => ?_
  unfold LineIndex.positionAt at he
  split at he
  · cases he
  · cases he
    rfl

theorem isOfPlace_of_startOf {e : Failure} (h : startOf t n = .error e) : isOfPlace e = true := by
  unfold startOf at h
  split at h
  · cases h
    rfl
  · exact (errorsIn_offsetOf _ _).bind (fun _ => errorsIn_positionAt _) e h

theorem isOfPlace_of_spanOf {e : Failure} (h : spanOf t n = .error e) : isOfPlace e = true := by
  unfold spanOf at h
  split at h
  · cases h
    rfl
  · obtain ⟨u, -, rfl⟩ := mapError_eq_error_iff.mp h
    rfl

/-- A failure that is not one of a place is a blank name, a defect of the tree or a docstring. -/
theorem Arises.of_not_isOfPlace {e : Failure} (h : Arises t root e) (he : isOfPlace e = false) :
    (∃ field, e = .argument (.blank field)) ∨ (∃ d, e = .defect d) ∨
      e = .docstring .blankArgument ∧ ∃ n ∈ root.preorder, HasBlankField n := by
  cases h with
  | blank field => exact .inl ⟨field, rfl⟩
  | defect h => exact .inr (.inl ⟨_, rfl⟩)
  | docstring hn h => exact .inr (.inr ⟨rfl, _, hn, h⟩)
  | span _ _ h => rw [isOfPlace_of_spanOf h] at he; cases he
  | start _ h => rw [isOfPlace_of_startOf h] at he; cases he
  | scope _ _ _ _ h => rw [isOfPlace, isOfPlace_of_make h] at he; cases he

theorem Arises.causedBy {e : Failure} (h : Arises t root e) : CausedBy root e := by
  cases e with
  | docstring f =>
    obtain ⟨_, h⟩ | ⟨_, h⟩ | ⟨h, hn⟩ := h.of_not_isOfPlace rfl
    · cases h
    · cases h
    · cases h
      exact ⟨rfl, hn⟩
  | _ => trivial

/-! ### Names and defects -/

theorem arises_of_sound {α : Type} {x : Except TreeDefect α}
    (h : ErrorsIn (fun d => d.isOfPlace = false) x) : ErrorsIn (Arises t root) (sound x) :=
  errorsIn_mapError fun d hd => .defect (h d hd)

theorem errorsIn_nameIn (field : String) (n : Node) :
    ErrorsIn (Arises t root) (nameIn field n) := by
  unfold nameIn
  split
  · exact errorsIn_ok _
  · rintro _ ⟨⟩
    exact .defect rfl

/-! ### Defects of parts -/

theorem errorsIn_parameterNames (n : Node) (skipFirst : Bool) :
    ErrorsIn (fun d => d.isOfPlace = false) (parameterNames n skipFirst) := by
  have hname : ∀ m : Node, ErrorsIn (fun d => d.isOfPlace = false) (parameterName m) := by
    intro m
    unfold parameterName
    split
    · rintro _ ⟨⟩
      rfl
    · exact errorsIn_ok _
  unfold parameterNames
  split
  · rintro _ ⟨⟩
    rfl
  · exact (errorsIn_mapM fun _ _ => hname _).bind fun _ =>
      (errorsIn_mapM fun _ _ => hname _).bind fun _ => errorsIn_ok _

theorem errorsIn_annotationText (declared : Option Node) :
    ErrorsIn (fun d => d.isOfPlace = false) (annotationText declared) := by
  unfold annotationText
  split
  · exact errorsIn_ok _
  · next n =>
    have hrender := Annotation.errorsIn_render n
    exact hrender.bind fun _ => errorsIn_ok _

theorem errorsIn_hasAbstractMetaclass (ks : List Node) :
    ErrorsIn (fun d => d.isOfPlace = false) (hasAbstractMetaclass ks) := by
  induction ks with
  | nil => exact errorsIn_ok _
  | cons k ks ih =>
    unfold hasAbstractMetaclass
    split
    · rintro _ ⟨⟩
      rfl
    · split
      · exact errorsIn_ok _
      · exact ih

theorem errorsIn_isAbstractClass (n : Node) :
    ErrorsIn (fun d => d.isOfPlace = false) (isAbstractClass n) := by
  unfold isAbstractClass
  split
  · exact errorsIn_ok _
  · exact (errorsIn_hasAbstractMetaclass _).map _

theorem errorsIn_statements (n : Node) :
    ErrorsIn (fun d => d.isOfPlace = false) (statements n) := by
  unfold statements
  split
  · rintro _ ⟨⟩
    rfl
  · exact errorsIn_ok _

theorem errorsIn_importsOf (n : Node) :
    ErrorsIn (fun d => d.isOfPlace = false) (importsOf n) := by
  have hnames : ∀ m : Node, ErrorsIn (fun d => d.isOfPlace = false) (importedNames m) := by
    intro m
    refine errorsIn_mapM fun a _ => ?_
    split
    · rintro _ ⟨⟩
      rfl
    · exact errorsIn_ok _
  refine ErrorsIn.map (errorsIn_mapM fun m _ => ?_) _
  unfold importsAt
  split
  · exact (hnames m).map _
  · split
    · split
      · rintro _ ⟨⟩
        rfl
      · exact (hnames m).map _
    · exact errorsIn_ok _

/-! ### Parts of a definition -/

theorem errorsIn_startOf (hn : IsReferred root n) : ErrorsIn (Arises t root) (startOf t n) :=
  fun _ h => .start hn h

/-- A docstring that cannot be read has a field with a blank argument. -/
theorem errorsIn_docstringOf (hn : n ∈ root.preorder) :
    ErrorsIn (Arises t root) (docstringOf t n) := by
  unfold docstringOf
  split
  · next hdocumented =>
    split
    · exact errorsIn_ok _
    · next first rest hbody =>
      split
      · exact errorsIn_ok _
      · next s hs =>
        have hplace : first ∈ n.places "body" := by
          rw [hbody]
          exact List.mem_cons_self
        have hfirst : first ∈ root.preorder :=
          Node.mem_preorder_child hn (Node.mem_children_of_mem_places hplace)
        -- looking for where the text begins fails for other causes, reading it for this one
        refine (errorsIn_startOf (.text hfirst (by rw [hs]; rfl))).bind fun start =>
          ErrorsIn.bind ?_ fun _ => errorsIn_ok _
        refine errorsIn_mapError fun f hf => ?_
        obtain ⟨rfl, line, hline, hblank⟩ := Docstring.parse_eq_error_iff.mp hf
        exact .docstring hn
          ⟨hdocumented, first, by rw [hbody]; rfl, s, hs, line, hline, hblank⟩
  · exact errorsIn_ok _

theorem errorsIn_referenceAt (hn : IsReferred root n) (kind : ReferenceKind) (target : String)
    (metadata : List (Scalar × Value)) :
    ErrorsIn (Arises t root) (referenceAt t kind n target metadata) :=
  (errorsIn_startOf hn).bind fun _ => errorsIn_mapError fun e he => by
    rw [Reference.errorsIn_make _ _ _ _ e he]
    exact .blank _

theorem errorsIn_decoratorReferences (hn : n ∈ root.preorder) (hdefining : n.isDefining = true) :
    ErrorsIn (Arises t root) (decoratorReferences t n) :=
  errorsIn_mapM fun _ hx => errorsIn_referenceAt
    (.reference hn hdefining (.inl (mem_of_mem_named hx))) _ _ _

theorem errorsIn_baseReferences (hn : n ∈ root.preorder) (hdefining : n.isDefining = true) :
    ErrorsIn (Arises t root) (baseReferences t n) :=
  errorsIn_mapM fun _ hx => errorsIn_referenceAt
    (.reference hn hdefining (.inr (mem_of_mem_named (List.mem_of_mem_filter hx)))) _ _ _

/-! ### Definitions -/

theorem errorsIn_frame (hn : n ∈ root.preorder) (hdefining : n.isDefining = true)
    (level : ScopeLevel) {children : List Scope} (hchildren : AreHeld t n children) :
    ErrorsIn (Arises t root) (frame t level n children) := by
  refine ErrorsIn.bind_of_eq (fun _ h => .span hn hdefining h) fun r hr => ?_
  have hscope : ErrorsIn (Arises t root) (built (Scope.make level r.1 r.2 children)) :=
    errorsIn_mapError fun e he => .scope hn hdefining hr hchildren he
  refine hscope.bind fun _ => ?_
  exact (errorsIn_docstringOf hn).bind fun _ =>
    (errorsIn_decoratorReferences hn hdefining).bind fun _ => errorsIn_ok _

theorem errorsIn_define (f : Frame) (name : String) (kind : DefinitionKind)
    (owner : Option String) (references : List Reference) (facts : List (Scalar × Value)) :
    ErrorsIn (Arises t root) (f.define name kind owner references facts) :=
  errorsIn_mapError fun e he => by
    rw [Definition.Content.errorsIn_make _ _ _ _ _ _ _ e he]
    exact .blank _

theorem errorsIn_function (hn : n ∈ root.preorder) (hfunction : n.isFunction = true)
    (owner : Option String) : ErrorsIn (Arises t root) (function t owner n) := by
  have hdefining := Node.isDefining_of_isFunction hfunction
  refine (errorsIn_nameIn _ _).bind fun _ =>
    (errorsIn_frame hn hdefining _ (.inl rfl)).bind fun _ =>
    (arises_of_sound (errorsIn_parameterNames _ _)).bind fun _ => ?_
  dsimp only
  -- a constructor has no type of its result
  split
  · exact (errorsIn_ok _).bind fun _ => errorsIn_define _ _ _ _ _ _
  · exact (arises_of_sound (errorsIn_annotationText _)).bind fun _ => (errorsIn_ok _).bind fun _ =>
      errorsIn_define _ _ _ _ _ _

theorem errorsIn_property (hn : n ∈ root.preorder) (hfunction : n.isFunction = true)
    (owner : Option String) : ErrorsIn (Arises t root) (property t owner n) :=
  have hdefining := Node.isDefining_of_isFunction hfunction
  (errorsIn_nameIn _ _).bind fun _ => (errorsIn_frame hn hdefining _ (.inl rfl)).bind fun _ =>
    (arises_of_sound (errorsIn_annotationText _)).bind fun _ => errorsIn_define _ _ _ _ _ _

theorem errorsIn_assignedVariables (hn : n ∈ root.preorder) (hassignment : n.isAssignment = true)
    (owner : Option String) : ErrorsIn (Arises t root) (assignedVariables t owner n) :=
  have hdefining := Node.isDefining_of_isAssignment hassignment
  (arises_of_sound (errorsIn_annotationText _)).bind fun _ => errorsIn_mapM fun _ _ =>
    (errorsIn_nameIn _ _).bind fun _ => (errorsIn_frame hn hdefining _ (.inl rfl)).bind fun _ =>
      errorsIn_define _ _ _ _ _ _

theorem errorsIn_memberDefinitions (hn : n ∈ root.preorder) (owner : Option String) :
    ErrorsIn (Arises t root) (memberDefinitions t owner n) := by
  unfold memberDefinitions
  -- a function, unless it belongs to a property, a property, an assignment, or nothing
  split
  · next hfunction =>
    split
    · exact errorsIn_ok _
    · split
      · exact (errorsIn_property hn hfunction owner).map _
      · exact (errorsIn_function hn hfunction owner).map _
  · split
    · next hassignment => exact errorsIn_assignedVariables hn hassignment owner
    · exact errorsIn_ok _

theorem errorsIn_members (hn : n ∈ root.preorder) : ErrorsIn (Arises t root) (members t n) := by
  unfold members
  split
  · exact ErrorsIn.map (errorsIn_mapM fun s hs => errorsIn_memberDefinitions
      (Node.mem_preorder_child hn (Node.mem_children_of_mem_inRole hs)) _) _
  · exact errorsIn_ok _

/-! ### Classes -/

theorem errorsIn_classFacts (n : Node) : ErrorsIn (Arises t root) (classFacts n) := by
  unfold classFacts
  -- an interface, an enumeration, or any other class
  split
  · exact errorsIn_ok _
  · exact ErrorsIn.bind ((errorsIn_mapM fun _ _ => errorsIn_nameIn _ _).bind fun _ => errorsIn_ok _)
      fun _ => errorsIn_ok _
  · exact (arises_of_sound (errorsIn_isAbstractClass _)).bind fun _ => errorsIn_ok _

theorem errorsIn_classDefinitions {c : LocatedClass} (hc : c.node ∈ root.preorder)
    (hclass : c.node.isClass = true) : ErrorsIn (Arises t root) (classDefinitions t c) := by
  have hdefining := Node.isDefining_of_isClass hclass
  -- the scope of the class has to hold those of its members
  refine ErrorsIn.bind_of_eq (errorsIn_members hc) fun ms hms =>
    ErrorsIn.bind_of_eq (errorsIn_nameIn _ _) fun name hname => ?_
  have hheld : AreHeld t c.node (ms.map (·.scope)) :=
    .inr ⟨name, ms, nameIn_eq_ok_iff.mp hname, hms, rfl⟩
  exact (errorsIn_frame hc hdefining _ hheld).bind fun _ =>
    (errorsIn_baseReferences hc hdefining).bind fun _ => (errorsIn_classFacts _).bind fun _ =>
      (errorsIn_define _ _ _ _ _ _).bind fun _ =>
        (arises_of_sound (errorsIn_statements _)).bind fun _ => errorsIn_ok _

theorem errorsIn_allClassDefinitions (hn : n ∈ root.preorder) (owner : Option String) :
    ErrorsIn (Arises t root) (allClassDefinitions t (classesAt owner n)) :=
  ErrorsIn.map (errorsIn_mapM fun c hc => errorsIn_classDefinitions
    (Node.preorder_subset_preorder hn c.node (mem_preorder_of_mem_classesAt hc))
    (isClass_of_mem_classesAt hc)) _

/-! ### Modules -/

theorem errorsIn_statementDefinitions (hn : n ∈ root.preorder) :
    ErrorsIn (Arises t root) (statementDefinitions t n) := by
  unfold statementDefinitions
  -- a place without a statement, a function, an assignment, or anything that holds classes
  split
  · rintro _ ⟨⟩
    exact .defect rfl
  · split
    · next hfunction =>
      exact (errorsIn_function hn hfunction _).bind fun _ =>
        (errorsIn_allClassDefinitions hn _).bind fun _ => errorsIn_ok _
    · split
      · next hassignment => exact errorsIn_assignedVariables hn hassignment _
      · exact errorsIn_allClassDefinitions hn _

theorem errorsIn_outline (name : String) (parts : List String) :
    ErrorsIn (Arises t root) (outline t name parts root) := by
  have hself := Node.mem_preorder_self root
  refine ErrorsIn.bind (ErrorsIn.map (errorsIn_mapM fun s hs => ?_) _) fun _ =>
    (arises_of_sound (errorsIn_importsOf _)).bind fun _ =>
      (errorsIn_docstringOf hself).bind fun _ => errorsIn_ok _
  exact errorsIn_statementDefinitions
    (Node.mem_preorder_child hself (Node.mem_children_of_mem_places hs))

/-- What follows after the name of a module is known fails for a cause in its tree. -/
theorem errorsIn_outlineUnit (ids : IdSource) (name : String) (parts : List String) :
    ErrorsIn (Arises t root) (outline t name parts root >>= fun o => built (o.toUnit ids)) :=
  (errorsIn_outline name parts).bind fun o => errorsIn_mapError fun e he => by
    rw [Outline.errorsIn_toUnit ids o e he]
    exact .blank _

theorem exists_of_moduleParts_eq_error {workingDirectory : List String}
    {path sourceRoot : Option Path} {e : Failure}
    (h : moduleParts workingDirectory path sourceRoot = .error e) :
    ∃ p, e = .noModuleName p := by
  unfold moduleParts at h
  split at h
  · split at h
    · cases h
    · split at h
      · cases h
        exact ⟨_, rfl⟩
      · cases h
  · cases h

/-- The conversion of a module with a tree is stopped by its name, or by a cause in the tree. -/
theorem arises_of_convert {ids : IdSource} {workingDirectory : List String}
    {sourceRoot : Option Path} {p : Parsed Node} {e : AnalysisError} (hroot : p.tree? = some root)
    (h : convert ids workingDirectory sourceRoot (some p) = .error e) :
    ∃ cause, e = .unconverted p.unitName cause ∧
      (moduleParts workingDirectory p.path sourceRoot = .error cause ∨
        Arises (.ofSource p.source) root cause) := by
  simp only [convert, Parsed.requireTree_of_tree? hroot, ok_bind, mapError_eq_error_iff] at h
  obtain ⟨cause, h, rfl⟩ := h
  refine ⟨cause, rfl, ?_⟩
  rcases bind_eq_error_iff.mp h with h | ⟨parts, -, h⟩
  · exact .inl h
  · exact .inr (errorsIn_outlineUnit ids p.unitName parts _ h)

/-- A module whose conversion is stopped by a docstring has one with a blank field. -/
theorem causedBy_of_convert {ids : IdSource} {workingDirectory : List String}
    {sourceRoot : Option Path} {p : Parsed Node} {unit : String} {e : Failure}
    (h : convert ids workingDirectory sourceRoot (some p) = .error (.unconverted unit e)) :
    ∃ root, p.tree? = some root ∧ CausedBy root e := by
  rcases hroot : p.tree? with - | root
  · simp [convert, Parsed.requireTree, hroot] at h
  · obtain ⟨_, ⟨⟩, h | h⟩ := arises_of_convert hroot h
    · obtain ⟨path, rfl⟩ := exists_of_moduleParts_eq_error h
      exact ⟨root, rfl, trivial⟩
    · exact ⟨root, rfl, h.causedBy⟩

/-- A docstring can be read exactly if no line of it is a field with a blank argument, and in no
other way can a docstring stop the conversion of a module. -/
theorem docstring_readable_iff (text : String) (position : Option Position) (ids : IdSource)
    (workingDirectory : List String) (sourceRoot : Option Path) (p : Parsed Node) :
    ((∃ d, Docstring.parse text position = .ok d) ↔
      ∀ line ∈ Docstring.linesOf text, ¬ Docstring.IsBlankField line) ∧
    ∀ (unit : String) (f : Docstring.Failure),
      convert ids workingDirectory sourceRoot (some p) = .error (.unconverted unit (.docstring f)) →
      f = .blankArgument ∧ ∃ root, p.tree? = some root ∧ ∃ n ∈ root.preorder, HasBlankField n := by
  refine ⟨Docstring.exists_parse_eq_ok_iff, ?_⟩
  intro unit f h
  obtain ⟨root, hroot, hf, hn⟩ := causedBy_of_convert h
  exact ⟨hf, root, hroot, hn⟩

/-! ### A field without a word -/

/-- What a parser makes of a module whose docstring is a field with a blank argument. -/
def blankField : Parsed Node where
  path := some (.ofString "m.py")
  source := "\":x  :\"\n".toUTF8.toList
  tree := some ⟨"", "Module", none, [], [
    ⟨"body", "Expr", some ⟨1, 0, some 1, some 7⟩, [], [
      ⟨"value", "Constant", some ⟨1, 0, some 1, some 7⟩, [("value", .literal (.text ":x  :"))],
        []⟩]⟩]⟩
  problems := []

theorem docstring_readable_iff_blankField :
    (∃ d, Docstring.parse ":param x: a" none = .ok d) ∧
      ∃ root, blankField.tree? = some root ∧ ∃ n ∈ root.preorder, HasBlankField n := by
  have hlines : ∀ line ∈ Docstring.linesOf ":param x: a", ¬ Docstring.IsBlankField line := by
    intro line hline hblank
    rw [show Docstring.linesOf ":param x: a" = [":param x: a".toList] by decide +kernel,
      List.mem_singleton] at hline
    obtain ⟨name, text, hfield⟩ := Docstring.exists_field?_of_isBlankField hblank
    rw [hline, show Docstring.field? ":param x: a".toList
      = some ("param".toList, some "x".toList, "a".toList) by decide +kernel] at hfield
    cases hfield
  have hconvert : ∃ unit f, convert toString [] none (some blankField)
      = .error (.unconverted unit (.docstring f)) := by
    have hcheck : (match convert toString [] none (some blankField) with
        | .error (.unconverted _ (.docstring _)) => true
        | _ => false) = true := by decide +kernel
    split at hcheck
    · next unit f h => exact ⟨unit, f, h⟩
    · cases hcheck
  obtain ⟨unit, f, hf⟩ := hconvert
  have hiff := docstring_readable_iff ":param x: a" none toString [] none blankField
  exact ⟨hiff.1.mpr hlines, (hiff.2 unit f hf).2⟩

/-- Not every docstring can be read. -/
theorem not_forall_exists_parse :
    ¬ ∀ (text : String) (position : Option Position),
      ∃ d, Docstring.parse text position = .ok d := by
  intro h
  obtain ⟨d, hd⟩ := h ":x  :" none
  have hok : (Docstring.parse ":x  :" none).isOk = false := by decide +kernel
  rw [hd] at hok
  cases hok

end Python

end CodeOutline
