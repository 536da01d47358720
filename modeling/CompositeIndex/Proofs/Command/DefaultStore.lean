import CompositeIndex.Command.Execution

/-!
# The store of a command without an endpoint

Without an endpoint a command makes one up from the place of the default warehouse, and reads it
like any other. Its ends are not blank and it has the scheme in front, so that reading it gives
back the path, whatever the directories are called, unless this path looks as if it had a scheme
of its own. It does so exactly if the setting does that names the home directory.
-/

namespace CompositeIndex

/-! ## Parts of texts -/

namespace Text

/-- Trimming leaves a text alone whose first and last characters are not blank. -/
theorem trimChars_of_solid_ends
    {first last : Char}
    (firstSolid : isBlank first = false)
    (lastSolid : isBlank last = false)
    (between : List Char) :
    trimChars (first :: (between ++ [last])) = first :: (between ++ [last]) := by
  unfold trimChars
  rw [List.dropWhile_cons_of_neg (by simp [firstSolid]), List.reverse_cons, List.reverse_concat,
    List.cons_append, List.dropWhile_cons_of_neg (by simp [lastSolid])]
  simp

section

variable {part : List Char} {char : Char}

theorem prefix_of_prefix_append_cons
    (notMember : char ∉ part)
    (front : List Char)
    {behind : List Char}
    (isPrefix : part <+: front ++ char :: behind) :
    part <+: front := by
  rcases List.prefix_or_prefix_of_prefix isPrefix (List.prefix_append _ _) with
    inFront | ⟨rest, rfl⟩
  · exact inFront
  · have beyond : rest <+: char :: behind := (List.prefix_append_right_inj front).mp isPrefix
    cases rest with
    | nil => simp
    | cons next rest =>
        obtain ⟨rfl, _⟩ := List.cons_prefix_cons.mp beyond
        simp at notMember

/-- A part does not reach over a character that it does not have. -/
theorem infix_append_cons_iff (notMember : char ∉ part) (front behind : List Char) :
    part <:+: front ++ char :: behind ↔ part <:+: front ∨ part <:+: behind := by
  induction front with
  | nil =>
      rw [List.nil_append, List.infix_cons_iff]
      refine or_congr_left ⟨fun isPrefix => ?_, fun isInfix => ?_⟩
      · exact (prefix_of_prefix_append_cons notMember [] isPrefix).isInfix
      · rw [List.infix_nil.mp isInfix]
        exact List.nil_prefix
  | cons first front inductionHypothesis =>
      rw [List.cons_append, List.infix_cons_iff, inductionHypothesis, List.infix_cons_iff,
        ← or_assoc]
      refine or_congr_left (or_congr_left ⟨fun isPrefix => ?_, fun isPrefix => ?_⟩)
      · exact prefix_of_prefix_append_cons notMember (first :: front) isPrefix
      · exact isPrefix.trans (List.prefix_append (first :: front) _)

end

end Text

namespace Location

theorem occursIn_iff {part text : List Char} : occursIn part text = true ↔ part <:+: text := by
  induction text with
  | nil => simp [occursIn]
  | cons char text inductionHypothesis =>
      rw [occursIn, Bool.or_eq_true, inductionHypothesis, List.isPrefixOf_iff_prefix,
        List.infix_cons_iff]

theorem withoutFront_append (front text : List Char) :
    withoutFront front (front ++ text) = text := by
  simp [withoutFront]

/-- The text looks as if there were a scheme in it. -/
def NamesScheme (text : String) : Prop :=
  schemeEnd.toList <:+: text.toList

/-! ## The default path -/

/-- What stands between a path and a name that is joined to it. -/
def gap (path : String) : List Char :=
  if path.isEmpty || path.toList.getLast? = some '/' then [] else ['/']

theorem toList_joinPath (path name : String) :
    (joinPath path name).toList = path.toList ++ gap path ++ name.toList := by
  unfold joinPath gap
  by_cases isEmpty : path.isEmpty
  · simp [String.isEmpty_iff.mp isEmpty]
  · by_cases ends : path.toList.getLast? = some '/' <;> simp [isEmpty, ends]

/-- No scheme comes about by what stands behind a path. -/
theorem infix_gap_iff (path : String) :
    schemeEnd.toList <:+: path.toList ++ gap path ↔ NamesScheme path := by
  unfold gap
  split
  · rw [List.append_nil]
    rfl
  · rename_i noSeparator
    rw [List.infix_concat_iff]
    refine or_iff_right fun isSuffix => noSeparator ?_
    obtain ⟨rest, ends⟩ := isSuffix
    -- in front of the separator there would be another one
    have shorter : path.toList = rest ++ [':', '/'] := by
      have whole : path.toList ++ ['/'] = (rest ++ [':', '/']) ++ ['/'] := by
        rw [← ends, schemeEnd]
        simp
      exact List.append_cancel_right whole
    simp [shorter]

theorem not_namesScheme_of_not_mem {text : String} (noColon : ':' ∉ text.toList) :
    ¬NamesScheme text := by
  intro foreign
  exact noColon (foreign.subset (by simp [schemeEnd]))

/-- A plain name that is joined to a path brings no scheme with it. -/
theorem namesScheme_joinPath_iff
    {name : String}
    (nonempty : name ≠ "")
    (noColon : ':' ∉ name.toList)
    (noSeparator : '/' ∉ name.toList)
    (path : String) :
    NamesScheme (joinPath path name) ↔ NamesScheme path := by
  cases spelled : name.toList with
  | nil => exact absurd (String.toList_eq_nil_iff.mp spelled) nonempty
  | cons first others =>
      rw [spelled, List.mem_cons, not_or] at noColon noSeparator
      have notMember : first ∉ schemeEnd.toList := by
        simp [schemeEnd, Ne.symm noColon.1, Ne.symm noSeparator.1]
      have plain : ¬schemeEnd.toList <:+: others := fun foreign =>
        noColon.2 (foreign.subset (by simp [schemeEnd]))
      rw [NamesScheme, toList_joinPath, spelled, Text.infix_append_cons_iff notMember,
        infix_gap_iff, or_iff_left plain]

end Location

/-- The setting that decides where the program keeps its data looks as if there were a scheme in
it. -/
inductive Environment.LooksForeign (environment : Environment) : Prop
  | program
      {home : String}
      (given : environment.programHome = some home)
      (foreign : Location.NamesScheme home) :
      LooksForeign environment
  /-- The home directory of the user counts if that of the program is not set, or set to
  nothing. -/
  | user
      {home : String}
      (notGiven : environment.programHome.getD "" = "")
      (given : environment.userHome = some home)
      (foreign : Location.NamesScheme home) :
      LooksForeign environment

namespace Location

theorem dataHome_of_given
    {environment : Environment}
    {home : String}
    (given : environment.programHome = some home)
    (nonempty : home ≠ "") :
    environment.dataHome = home := by
  have kept : (environment.programHome.filter fun path => !path.isEmpty) = some home := by
    rw [given, Option.filter_some, if_pos (by simpa using nonempty)]
  rw [Environment.dataHome, kept]

theorem dataHome_of_not_given
    {environment : Environment}
    (notGiven : environment.programHome.getD "" = "") :
    environment.dataHome =
      (environment.userHome.map fun home => joinPath home ".tickdex").getD ".tickdex" := by
  have unset : (environment.programHome.filter fun path => !path.isEmpty) = none := by
    cases given : environment.programHome with
    | none => rfl
    | some home =>
        rw [given, Option.getD_some] at notGiven
        simp [notGiven]
  rw [Environment.dataHome, unset]
  cases environment.userHome <;> rfl

theorem looksForeign_iff_of_given
    {environment : Environment}
    {home : String}
    (given : environment.programHome = some home)
    (nonempty : home ≠ "") :
    environment.LooksForeign ↔ NamesScheme home := by
  constructor
  · rintro (⟨alsoGiven, foreign⟩ | ⟨notGiven, _, _⟩)
    · cases given.symm.trans alsoGiven
      exact foreign
    · rw [given] at notGiven
      exact absurd notGiven nonempty
  · exact .program given

theorem looksForeign_iff_of_not_given
    {environment : Environment}
    (notGiven : environment.programHome.getD "" = "") :
    environment.LooksForeign ↔ ∃ home, environment.userHome = some home ∧ NamesScheme home := by
  constructor
  · rintro (⟨given, foreign⟩ | ⟨_, given, foreign⟩)
    · -- no scheme stands in a setting that is empty
      rw [given, Option.getD_some] at notGiven
      rw [notGiven] at foreign
      exact absurd foreign (not_namesScheme_of_not_mem (by simp))
    · exact ⟨_, given, foreign⟩
  · rintro ⟨home, given, foreign⟩
    exact .user notGiven given foreign

theorem namesScheme_dataHome_iff (environment : Environment) :
    NamesScheme environment.dataHome ↔ environment.LooksForeign := by
  by_cases notGiven : environment.programHome.getD "" = ""
  · rw [dataHome_of_not_given notGiven, looksForeign_iff_of_not_given notGiven]
    cases environment.userHome with
    | none =>
        refine iff_of_false (not_namesScheme_of_not_mem (by simp)) ?_
        rintro ⟨_, given, _⟩
        cases given
    | some home =>
        rw [Option.map_some, Option.getD_some,
          namesScheme_joinPath_iff (by decide) (by simp) (by simp)]
        simp
  · cases given : environment.programHome with
    | none =>
        rw [given] at notGiven
        exact absurd rfl notGiven
    | some home =>
        rw [given] at notGiven
        rw [dataHome_of_given given notGiven, looksForeign_iff_of_given given notGiven]

/-- The default path looks foreign exactly if its home directory does. -/
theorem namesScheme_default_iff (environment : Environment) :
    NamesScheme (default environment).path ↔ environment.LooksForeign := by
  calc NamesScheme (default environment).path
    _ ↔ NamesScheme (joinPath environment.dataHome "cache") :=
      namesScheme_joinPath_iff (by decide) (by simp) (by simp) _
    _ ↔ NamesScheme environment.dataHome :=
      namesScheme_joinPath_iff (by decide) (by simp) (by simp) _
    _ ↔ environment.LooksForeign := namesScheme_dataHome_iff environment

/-- The default path ends with the name of its file. -/
theorem exists_path_default_eq (environment : Environment) :
    ∃ front, (default environment).path.toList = front ++ "warehouse.duckdb".toList :=
  ⟨_, toList_joinPath _ _⟩

theorem endpointPath?_defaultEndpoint (environment : Environment) :
    endpointPath? (defaultEndpoint environment) =
      if occursIn schemeEnd.toList (default environment).path.toList then none
      else some (default environment).path := by
  obtain ⟨front, path⟩ := exists_path_default_eq environment
  have trimmed : Text.trimChars (defaultEndpoint environment).toList =
      scheme.toList ++ (default environment).path.toList := by
    have spelled : (defaultEndpoint environment).toList =
        'd' :: ("uckdb://".toList ++ front ++ "warehouse.duckd".toList ++ ['b']) := by
      rw [defaultEndpoint, String.toList_append, path]
      simp [scheme]
    rw [spelled, Text.trimChars_of_solid_ends (by decide) (by decide), path]
    simp [scheme]
  have nonempty : (default environment).path.toList.isEmpty = false := by
    rw [path]
    simp
  rw [endpointPath?, trimmed, withoutFront_append, nonempty, Bool.false_or,
    String.ofList_toList]

/-- The default warehouse is a file. -/
theorem isInMemory_default (environment : Environment) :
    (default environment).isInMemory = false := by
  obtain ⟨front, path⟩ := exists_path_default_eq environment
  refine beq_eq_false_iff_ne.mpr fun same => ?_
  have last := congrArg (fun text : String => text.toList.getLast?) same
  rw [path, List.getLast?_append] at last
  simp [memoryPath] at last

/-- A command without an endpoint works on the default warehouse, which is a file. Only where the
setting of the home directory looks as if there were a scheme in it, the command refuses the
endpoint that it has made up itself. -/
theorem ofEndpoint_endpointOf
    {arguments : Command.Arguments}
    (noStore : arguments.store = none)
    (environment : Environment) :
    let endpoint := Command.endpointOf arguments environment
    (¬environment.LooksForeign → ofEndpoint environment endpoint = .ok (default environment)) ∧
    (environment.LooksForeign → ofEndpoint environment endpoint = .error (.badEndpoint endpoint)) ∧
    (default environment).isInMemory = false := by
  intro endpoint
  have isDefault : endpoint = defaultEndpoint environment := by
    rw [show endpoint = arguments.store.getD (defaultEndpoint environment) from rfl, noStore]
    rfl
  have found := endpointPath?_defaultEndpoint environment
  rw [← isDefault] at found
  refine ⟨fun own => ?_, fun foreign => ?_, isInMemory_default environment⟩
  · rw [if_neg (by rwa [occursIn_iff, ← NamesScheme, namesScheme_default_iff])] at found
    rw [ofEndpoint, found]
  · rw [if_pos (by rwa [occursIn_iff, ← NamesScheme, namesScheme_default_iff])] at found
    rw [ofEndpoint, found]

/-- A home directory that begins and ends with a blank, where that of the program is set to
nothing. -/
theorem ofEndpoint_endpointOf_sample :
    let arguments : Command.Arguments := { task := .catalog }
    let environment : Environment := { programHome := some "", userHome := some " C:/u " }
    arguments.store = none ∧ ¬environment.LooksForeign ∧
      Command.endpointOf arguments environment =
        "duckdb:// C:/u /.tickdex/cache/warehouse.duckdb" ∧
      ofEndpoint environment (Command.endpointOf arguments environment) =
        .ok (default environment) := by
  intro arguments environment
  have own : ¬environment.LooksForeign := by
    rintro (⟨given, foreign⟩ | ⟨_, given, foreign⟩) <;> cases given <;>
      exact absurd (occursIn_iff.mpr foreign) (by decide)
  exact ⟨rfl, own, by decide, (ofEndpoint_endpointOf rfl environment).1 own⟩

/-- A home directory with a colon and two slashes in its name. The endpoint that is made up for
it is refused. -/
theorem ofEndpoint_refuses_default :
    let arguments : Command.Arguments := { task := .catalog }
    let environment : Environment := { userHome := some "a://b" }
    Command.endpointOf arguments environment =
      "duckdb://a://b/.tickdex/cache/warehouse.duckdb" ∧
    ¬∃ location, ofEndpoint environment (Command.endpointOf arguments environment) =
      .ok location ∧ location.path = (default environment).path := by
  intro arguments environment
  refine ⟨by decide, ?_⟩
  rintro ⟨location, accepted, _⟩
  have refused : endpointPath? (Command.endpointOf arguments environment) = none := by decide
  rw [ofEndpoint, refused] at accepted
  cases accepted

end Location
end CompositeIndex
