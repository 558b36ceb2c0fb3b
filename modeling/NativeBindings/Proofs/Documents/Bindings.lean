import NativeBindings.Proofs.Documents.Reading

/-!
# Imports in bindings

Every import is declared on one line of bindings, and these are the only lines that declare imports,
though each class is laid out on its own and put into the document as a block. Documentation stays
behind the marks of its comment lines.
-/

namespace NativeBindings

open Text

/-- The lines that a member is documented with; blank documentation has none. -/
def describedLines (doc : Option String) : List (List Char) :=
  match doc with
  | some doc => if isAllBlank doc then [] else lines doc.toList
  | none => []

def commentLines (doc : Option String) : List (List Char) :=
  "/// <summary>".toList ::
    ((describedLines doc).map ("/// ".toList ++ trimEnd ·) ++ ["/// </summary>".toList])

theorem toList_summaryComment (doc : Option String) :
    (summaryComment doc).toList = (commentLines doc).flatMap (· ++ ['\n']) := by
  have hfirst : "/// <summary>\n".toList = "/// <summary>".toList ++ ['\n'] := by decide
  have hlast : "/// </summary>\n".toList = "/// </summary>".toList ++ ['\n'] := by decide
  have hend : "\n".toList = ['\n'] := rfl
  have hjoin : ∀ described : List (List Char),
      (String.join (described.map fun line =>
        "/// " ++ String.ofList (trimEnd line) ++ "\n")).toList =
      (described.map ("/// ".toList ++ trimEnd ·)).flatMap (· ++ ['\n']) := by
    intro described
    rw [String.toList_join, List.flatMap_map, List.flatMap_map]
    apply List.flatMap_congr
    intro line _
    rw [String.toList_append, String.toList_append, hend]
    exact congrArg ("/// ".toList ++ · ++ ['\n']) String.toList_ofList
  change ("/// <summary>\n" ++ String.join ((describedLines doc).map fun line =>
    "/// " ++ String.ofList (trimEnd line) ++ "\n") ++ "/// </summary>\n").toList = _
  rw [String.toList_append, String.toList_append, hfirst, hlast, hjoin, commentLines,
    List.flatMap_cons, List.flatMap_append, List.flatMap_singleton, List.append_assoc]

theorem notMem_of_mem_commentLines {doc : Option String} {line : List Char}
    (h : line ∈ commentLines doc) : '\n' ∉ line := by
  have hdescribed : ∀ described ∈ describedLines doc, '\n' ∉ described := by
    intro described hd
    unfold describedLines at hd
    split at hd
    · split at hd
      · exact absurd hd List.not_mem_nil
      · exact notMem_of_mem_lines hd
    · exact absurd hd List.not_mem_nil
  rcases List.mem_cons.mp h with rfl | h
  · decide
  · rcases List.mem_append.mp h with h | h
    · obtain ⟨described, hd, rfl⟩ := List.mem_map.mp h
      rw [List.mem_append, not_or]
      exact ⟨by decide, fun hm => hdescribed described hd ((trimEnd_isPrefix described).subset hm)⟩
    · rw [List.mem_singleton.mp h]
      decide

theorem getLast?_of_mem_commentLines {doc : Option String} {line : List Char}
    (h : line ∈ commentLines doc) : line.getLast? ≠ some '\r' := by
  rcases List.mem_cons.mp h with rfl | h
  · decide
  · rcases List.mem_append.mp h with h | h
    · obtain ⟨described, -, rfl⟩ := List.mem_map.mp h
      intro hlast
      rw [List.getLast?_append, Option.or_eq_some_iff] at hlast
      rcases hlast with hlast | ⟨-, hlast⟩
      · exact absurd (isBlank_getLast_trimEnd _ hlast) (by decide)
      · exact absurd hlast (by decide)
    · rw [List.mem_singleton.mp h]
      decide

theorem lines_summaryComment_append (doc : Option String) (text : List Char) :
    lines ((summaryComment doc).toList ++ text) = commentLines doc ++ lines text := by
  have hread : (commentLines doc).map withoutReturn = commentLines doc := by
    rw [List.map_congr_left fun line hline =>
      withoutReturn_of_getLast? (getLast?_of_mem_commentLines hline), List.map_id']
  rw [toList_summaryComment, lines_flatMap (fun _ => notMem_of_mem_commentLines), hread]

theorem lines_summaryComment (doc : Option String) :
    lines (summaryComment doc).toList = commentLines doc := by
  have h := lines_summaryComment_append doc []
  rwa [List.append_nil, lines, List.append_nil] at h

theorem importOn?_comment {doc : Option String} {line : List Char} (h : line ∈ commentLines doc) :
    importOn? line = none := by
  have hslash : "/// ".toList = "///".toList ++ [' '] := by decide
  have hmark : ∀ rest, importOn? ("///".toList ++ rest) = none :=
    importOn?_eq_none (by decide) (by decide) (by decide)
  rcases List.mem_cons.mp h with rfl | h
  · exact hmark " <summary>".toList
  · rcases List.mem_append.mp h with h | h
    · obtain ⟨described, -, rfl⟩ := List.mem_map.mp h
      rw [hslash, List.append_assoc]
      exact hmark _
    · rw [List.mem_singleton.mp h]
      exact hmark " </summary>".toList

/-- Whatever documentation says, no import is read from it. -/
theorem importsIn_summaryComment_append (doc : Option String) (text : String) :
    importsIn (summaryComment doc ++ text) = importsIn text := by
  have hcomment : ((commentLines doc).map withoutReturn).filterMap importOn? = [] := by
    rw [List.filterMap_map, List.filterMap_eq_nil_iff]
    intro line hline
    have hread : importOn? (withoutReturn line) = importOn? line :=
      congrArg declaredOn? (trim_withoutReturn line)
    exact hread.trans (importOn?_comment hline)
  rw [importsIn, String.toList_append, toList_summaryComment,
    lines_flatMap (fun _ => notMem_of_mem_commentLines), List.filterMap_append, hcomment]
  rfl

theorem importsIn_summaryComment (doc : Option String) : importsIn (summaryComment doc) = [] := by
  have h := importsIn_summaryComment_append doc ""
  rwa [String.append_empty] at h

theorem importsIn_line {text : String} (h : ConsistsOf IsInLine text) :
    importsIn text = (importOn? text.toList).toList := by
  by_cases hne : text.toList = []
  · rw [importsIn, hne]
    decide
  · rw [importsIn, lines_last (consistsOf_isInLine.mp h) hne]
    cases hread : importOn? text.toList with
    | none => exact List.filterMap_cons_none hread
    | some name => exact List.filterMap_cons_some hread

theorem importsIn_line_append {text : String} (h : ConsistsOf IsInLine text) (rest : String) :
    importsIn (text ++ ("\n" ++ rest)) = (importOn? text.toList).toList ++ importsIn rest := by
  have hend : ("\n" ++ rest).toList = '\n' :: rest.toList := by
    rw [String.toList_append]
    rfl
  have hread : importOn? (withoutReturn text.toList) = importOn? text.toList :=
    congrArg declaredOn? (trim_withoutReturn _)
  rw [importsIn, String.toList_append, hend, lines_line (consistsOf_isInLine.mp h),
    List.filterMap_cons, hread]
  cases importOn? text.toList <;> rfl

namespace WrapperMember

theorem isPrefix_signature (m : WrapperMember) : "public".toList <+: m.signature.toList := by
  have hmodifiers : "public".toList <+:
      (if m.isStatic then "public static" else "public").toList := by
    cases m.isStatic <;> decide
  refine hmodifiers.trans ?_
  unfold signature
  generalize m.head = head
  generalize m.body = body
  simp only [String.append_assoc]
  exact isPrefix_toList_append _ _

theorem importsIn_text {m : WrapperMember} (h : ConsistsOf IsInLine m.signature) :
    importsIn m.text = [] := by
  obtain ⟨rest, hrest⟩ := m.isPrefix_signature
  have hnone : importOn? m.signature.toList = none := by
    rw [← hrest]
    exact importOn?_eq_none (by decide) (by decide) (by decide) rest
  rw [text, importsIn_summaryComment_append, importsIn_line h, hnone]
  rfl

end WrapperMember

namespace ImportDeclaration

/-- The import can be read on its line. -/
structure IsReadable (decl : ImportDeclaration) : Prop where
  exportName : ConsistsOf IsSolid decl.exportName
  returnType : ConsistsOf IsPlain decl.returnType
  params : ∀ param ∈ decl.params, ConsistsOf IsInLine param.text

def declaration (decl : ImportDeclaration) : String :=
  "private static extern " ++ (decl.returnType ++ (" " ++ decl.exportName) ++ ("(" ++
    (", ".intercalate (decl.params.map (·.text)) ++ ");")))

theorem text_eq (decl : ImportDeclaration) (library : String) :
    decl.text library = "[DllImport(" ++ library ++
      ", CallingConvention = CallingConvention.Cdecl)]" ++ ("\n" ++ decl.declaration) := by
  have hend : ", CallingConvention = CallingConvention.Cdecl)]\n" =
      ", CallingConvention = CallingConvention.Cdecl)]" ++ "\n" := by decide
  unfold text declaration
  generalize ", ".intercalate (decl.params.map (·.text)) = params
  rw [hend]
  simp only [String.append_assoc]

-- Stated of variables, since literals would be looked into as texts.
private theorem toList_append_seven (a b c d e f g : String) :
    (a ++ (b ++ (c ++ d) ++ (e ++ (f ++ g)))).toList =
      a.toList ++ (b.toList ++ (c.toList ++ d.toList) ++
        (e.toList ++ (f.toList ++ g.toList))) := by
  simp only [String.toList_append]

theorem importOn?_toList_declaration {decl : ImportDeclaration} (h : decl.IsReadable) :
    importOn? decl.declaration.toList = some decl.exportName := by
  have hreturn : '(' ∉ decl.returnType.toList := fun hm => (h.returnType '(' hm).2.1 rfl
  have hname : '(' ∉ decl.exportName.toList := fun hm => (h.exportName '(' hm).2.1 rfl
  have hspace : ' ' ∉ decl.exportName.toList := fun hm =>
    absurd (h.exportName ' ' hm).1 (by decide)
  have hread := importOn?_declaration (toList_append_seven "private static extern "
    decl.returnType " " decl.exportName "(" (", ".intercalate (decl.params.map (·.text))) ");")
    hreturn hname hspace
  exact hread.trans (congrArg some String.ofList_toList)

theorem isInLine_declaration {decl : ImportDeclaration} (h : decl.IsReadable) :
    ConsistsOf IsInLine decl.declaration := by
  have hparams : ConsistsOf IsInLine (", ".intercalate (decl.params.map (·.text))) := by
    refine consistsOf_intercalate (by decide) fun text htext => ?_
    obtain ⟨param, hp, rfl⟩ := List.mem_map.mp htext
    exact h.params param hp
  have hreturn := h.returnType.mono fun _ => IsPlain.isInLine
  have hname := h.exportName.mono fun _ hc => hc.isPlain.isInLine
  have hdeclared : ConsistsOf IsInLine (decl.returnType ++ (" " ++ decl.exportName)) :=
    consistsOf_append.mpr ⟨hreturn, consistsOf_append.mpr ⟨by decide, hname⟩⟩
  have hclosed : ConsistsOf IsInLine (", ".intercalate (decl.params.map (·.text)) ++ ");") :=
    consistsOf_append.mpr ⟨hparams, by decide⟩
  exact consistsOf_append.mpr ⟨by decide, consistsOf_append.mpr ⟨hdeclared,
    consistsOf_append.mpr ⟨by decide, hclosed⟩⟩⟩

theorem importsIn_text {decl : ImportDeclaration} (h : decl.IsReadable)
    {library : String} (hl : ConsistsOf IsInLine library) :
    importsIn (decl.text library) = [decl.exportName] := by
  have hattribute : ConsistsOf IsInLine ("[DllImport(" ++ library ++
      ", CallingConvention = CallingConvention.Cdecl)]") := by
    rw [consistsOf_append, consistsOf_append]
    exact ⟨⟨by decide, hl⟩, by decide⟩
  have hnone : importOn? ("[DllImport(" ++ library ++
      ", CallingConvention = CallingConvention.Cdecl)]").toList = none := by
    rw [String.append_assoc, String.toList_append]
    exact importOn?_eq_none (by decide) (by decide) (by decide) _
  rw [text_eq, importsIn_line_append hattribute, hnone, importsIn_line (isInLine_declaration h),
    importOn?_toList_declaration h]
  rfl

end ImportDeclaration

namespace LayoutStep

/-- The step writes whole lines, none of which declares an import. -/
def IsSilent (step : LayoutStep) : Prop := step.IsWhole ∧ step.imports = []

instance : DecidablePred IsSilent := fun step =>
  inferInstanceAs (Decidable
    ((∀ content ∈ step.contents, '\n' ∉ content) ∧ step.imports = []))

theorem IsSilent.line (word : String) {front name back : String}
    (hname : ConsistsOf IsInLine name) (hfront : ConsistsOf IsInLine front)
    (hback : ConsistsOf IsInLine back) (hp : word.toList <+: front.toList)
    (hw : word.toList.any isBlank = false) (hs : ¬ importMark <+: word.toList)
    (hs' : ¬ word.toList <+: importMark) : (line (front ++ name ++ back)).IsSilent := by
  refine ⟨isWhole_line.mpr ?_, List.filterMap_cons_none ?_⟩
  · rw [consistsOf_append, consistsOf_append]
    exact ⟨⟨hfront, hname⟩, hback⟩
  · have hprefix := hp.trans (isPrefix_toList_append front (name ++ back))
    obtain ⟨rest, hrest⟩ := hprefix
    rw [String.append_assoc, ← hrest]
    exact importOn?_eq_none hw hs hs' rest

theorem IsSilent.comment (doc : Option String) : (block (summaryComment doc)).IsSilent :=
  ⟨isWhole_block _, importsIn_summaryComment doc⟩

theorem IsSilent.blank : LayoutStep.blank.IsSilent := by decide

end LayoutStep

/-- The steps write whole lines, which declare imports of these names and no others. -/
structure DeclaresImports (steps : List LayoutStep) (names : List String) : Prop where
  whole : ∀ step ∈ steps, step.IsWhole
  imports : steps.flatMap (·.imports) = names

namespace DeclaresImports

variable {steps more : List LayoutStep} {names names' : List String}

theorem read (h : DeclaresImports steps names) : importsIn (layoutText steps) = names := by
  rw [importsIn_layoutText h.whole, h.imports]

theorem of_silent (h : ∀ step ∈ steps, step.IsSilent) : DeclaresImports steps [] where
  whole step hs := (h step hs).1
  imports := List.flatMap_eq_nil_iff.mpr fun step hs => (h step hs).2

theorem append (h : DeclaresImports steps names) (h' : DeclaresImports more names') :
    DeclaresImports (steps ++ more) (names ++ names') where
  whole := List.forall_mem_append.mpr ⟨h.whole, h'.whole⟩
  imports := by rw [List.flatMap_append, h.imports, h'.imports]

theorem block (text : String) : DeclaresImports [.block text] (importsIn text) where
  whole := by simp
  imports := by
    rw [List.flatMap_singleton]
    rfl

theorem blocks (texts : List String) :
    DeclaresImports (List.intercalate [.blank] (texts.map fun text => [.block text]))
      (texts.flatMap importsIn) := by
  induction texts with
  | nil => exact of_silent fun _ hm => absurd hm List.not_mem_nil
  | cons first rest ih =>
    cases rest with
    | nil =>
      have h := block first
      rw [← List.append_nil (importsIn first)] at h
      exact h
    | cons second rest =>
      have hblank : DeclaresImports [LayoutStep.blank] [] :=
        of_silent (by simpa using LayoutStep.IsSilent.blank)
      have h := ((block first).append hblank).append ih
      rw [List.append_nil] at h
      simp only [List.map_cons, List.intercalate_cons_cons, List.flatMap_cons] at h ⊢
      exact h

end DeclaresImports

namespace BindingClass

structure IsReadable (c : BindingClass) : Prop where
  wrapperName : ConsistsOf IsInLine c.wrapperName
  imports : ∀ m ∈ c.members, m.importDecl.IsReadable
  signatures : ∀ m ∈ c.members, ConsistsOf IsInLine m.wrapper.signature
  dispose : c.dispose.IsReadable

/-- The lines of disposal up to the call of the import, which are the same for all classes. -/
def disposeOpening : List LayoutStep :=
  [.line "private readonly object disposeSync = new object();", .blank,
    .line "public void Dispose()", .opening "\x7b",
    .line "if (Handle != (void*) IntPtr.Zero)", .opening "\x7b",
    .line "lock (disposeSync)", .opening "\x7b",
    .line "if (Handle != (void*) IntPtr.Zero)", .opening "\x7b"]

def disposeClosing : List LayoutStep :=
  [.line "Handle = (void*) IntPtr.Zero;",
    .closing "\x7d", .closing "\x7d", .closing "\x7d",
    .line "GC.SuppressFinalize(this);", .closing "\x7d", .blank]

theorem disposeLayout_eq (c : BindingClass) (library : String) :
    c.disposeLayout library = disposeOpening ++
      ([.line (c.dispose.exportName ++ "(Handle);")] ++ (disposeClosing ++
        ([.line ("~" ++ c.wrapperName ++ "() => Dispose();"), .blank] ++
          [.block (c.dispose.text library)]))) := rfl

theorem isSilent_disposeOpening : ∀ step ∈ disposeOpening, step.IsSilent := by decide +kernel

theorem isSilent_disposeClosing : ∀ step ∈ disposeClosing, step.IsSilent := by decide +kernel

variable {c : BindingClass} (h : c.IsReadable)

include h

theorem isSilent_handleLayout : ∀ step ∈ c.handleLayout, step.IsSilent := by
  have hconstructor : (LayoutStep.line
      ("public " ++ c.wrapperName ++ "(void* handle) => this.Handle = handle;")).IsSilent :=
    .line "public" h.wrapperName (by decide) (by decide) (by decide) (by decide) (by decide)
      (by decide)
  simp only [handleLayout, List.forall_mem_cons]
  exact ⟨.comment _, by decide +kernel, .blank, .comment _, hconstructor, .blank,
    fun _ hm => absurd hm List.not_mem_nil⟩

theorem isSilent_members : ∀ step ∈ c.members.flatMap
    (fun m => [LayoutStep.block m.wrapper.text, LayoutStep.blank]), step.IsSilent := by
  intro step hstep
  obtain ⟨m, hm, hstep⟩ := List.mem_flatMap.mp hstep
  simp only [List.mem_cons, List.not_mem_nil, or_false] at hstep
  rcases hstep with rfl | rfl
  · exact ⟨LayoutStep.isWhole_block _, WrapperMember.importsIn_text (h.signatures m hm)⟩
  · exact .blank

theorem isSilent_disposeCall :
    (LayoutStep.line (c.dispose.exportName ++ "(Handle);")).IsSilent := by
  have hname := h.dispose.exportName
  have hspace : ' ' ∉ (c.dispose.exportName ++ "(Handle);").toList := by
    rw [String.toList_append, List.mem_append, not_or]
    exact ⟨fun hm => absurd (hname ' ' hm).1 (by decide), by decide⟩
  refine ⟨LayoutStep.isWhole_line.mpr ?_,
    List.filterMap_cons_none (importOn?_eq_none_of_noSpace hspace)⟩
  exact consistsOf_append.mpr ⟨hname.mono fun _ hc => hc.isPlain.isInLine, by decide⟩

theorem isSilent_finalizer :
    (LayoutStep.line ("~" ++ c.wrapperName ++ "() => Dispose();")).IsSilent :=
  .line "~" h.wrapperName (by decide) (by decide) (by decide) (by decide) (by decide) (by decide)

variable {library : String} (hl : ConsistsOf IsInLine library)

include hl

theorem declaresImports_disposeLayout :
    DeclaresImports (c.disposeLayout library) [c.dispose.exportName] := by
  have hcall : DeclaresImports [.line (c.dispose.exportName ++ "(Handle);")] [] :=
    .of_silent (by simpa using isSilent_disposeCall h)
  have hend : DeclaresImports [.line ("~" ++ c.wrapperName ++ "() => Dispose();"), .blank] [] :=
    .of_silent (by simpa using ⟨isSilent_finalizer h, LayoutStep.IsSilent.blank⟩)
  have hblock := DeclaresImports.block (c.dispose.text library)
  rw [ImportDeclaration.importsIn_text h.dispose hl] at hblock
  rw [disposeLayout_eq]
  exact (DeclaresImports.of_silent isSilent_disposeOpening).append
    (hcall.append ((DeclaresImports.of_silent isSilent_disposeClosing).append (hend.append hblock)))

theorem declaresImports_importLayout :
    DeclaresImports (c.importLayout library) (c.members.map (·.importDecl.exportName)) := by
  have hopening : DeclaresImports [.line "#region DllImports"] [] := .of_silent (by decide +kernel)
  have hclosing : DeclaresImports [.line "#endregion", .blank] [] := .of_silent (by decide +kernel)
  have hblocks := DeclaresImports.blocks (c.members.map (·.importDecl.text library))
  have hread : (c.members.map (·.importDecl.text library)).flatMap importsIn =
      c.members.map (·.importDecl.exportName) := by
    rw [List.flatMap_map, List.map_eq_flatMap]
    exact List.flatMap_congr fun m hm => ImportDeclaration.importsIn_text (h.imports m hm) hl
  rw [hread, List.map_map] at hblocks
  have hall := (hopening.append hblocks).append hclosing
  rw [List.nil_append, List.append_nil] at hall
  exact hall

theorem importsIn_text : importsIn (c.text library) =
    c.members.map (·.importDecl.exportName) ++ [c.dispose.exportName] := by
  have hopening : DeclaresImports
      [.line ("public unsafe partial class " ++ c.wrapperName ++ " : IDisposable"),
        .opening "\x7b"] [] := by
    have hline : (LayoutStep.line
        ("public unsafe partial class " ++ c.wrapperName ++ " : IDisposable")).IsSilent :=
      .line "public" h.wrapperName (by decide) (by decide) (by decide) (by decide) (by decide)
        (by decide)
    have hbrace : (LayoutStep.opening "\x7b").IsSilent := by decide
    exact .of_silent (by simpa using ⟨hline, hbrace⟩)
  have hclosing : DeclaresImports [.closing "\x7d"] [] := .of_silent (by decide)
  have hall := ((((hopening.append (.of_silent (isSilent_handleLayout h))).append
    (.of_silent (isSilent_members h))).append (declaresImports_importLayout h hl)).append
      (declaresImports_disposeLayout h hl)).append hclosing
  exact hall.read.trans (by simp)

end BindingClass

/-- Reading bindings gives the imports of their classes. -/
theorem BindingDocument.importsIn_text {document : BindingDocument}
    (hnamespace : ConsistsOf IsInLine document.namespaceName)
    (hl : ConsistsOf IsInLine document.nativeLibrary)
    (h : ∀ c ∈ document.classes, c.IsReadable) :
    importsIn document.text = document.classes.flatMap fun c =>
      c.members.map (·.importDecl.exportName) ++ [c.dispose.exportName] := by
  have hopening : DeclaresImports (opening document.namespaceName) [] := by
    have hline : (LayoutStep.line ("namespace " ++ document.namespaceName ++ "")).IsSilent :=
      .line "namespace" hnamespace (by decide) (by decide) (by decide) (by decide) (by decide)
        (by decide)
    rw [String.append_empty] at hline
    apply DeclaresImports.of_silent
    simp only [opening, List.forall_mem_cons]
    exact ⟨by decide +kernel, .blank, by decide +kernel, by decide +kernel, .blank, hline,
      by decide +kernel, fun _ hm => absurd hm List.not_mem_nil⟩
  have hclosing : DeclaresImports [.closing "\x7d"] [] := .of_silent (by decide)
  have hblocks := DeclaresImports.blocks (document.classes.map (·.text document.nativeLibrary))
  have hread : (document.classes.map (·.text document.nativeLibrary)).flatMap importsIn =
      document.classes.flatMap fun c =>
        c.members.map (·.importDecl.exportName) ++ [c.dispose.exportName] := by
    rw [List.flatMap_map]
    exact List.flatMap_congr fun c hc => BindingClass.importsIn_text (h c hc) hl
  rw [hread, List.map_map] at hblocks
  have hall := (hopening.append hblocks).append hclosing
  exact hall.read.trans (by simp)

end NativeBindings
