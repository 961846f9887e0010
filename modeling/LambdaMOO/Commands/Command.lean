import LambdaMOO.Commands.Prepositions
import LambdaMOO.Commands.Match

/-!
# Commands

`parse_command` takes a line apart into a verb, its arguments and the objects around a
preposition. Nothing is the result where the server would crash.
-/

namespace LambdaMOO

/-- `build_string`. -/
def buildString : List (List UInt8) → List UInt8
  | [] => []
  | w :: argv => argv.foldl (fun str w => str ++ [space] ++ w) w

/-- `Parsed_Command`. `PREP_NONE` is none. -/
structure ParsedCommand where
  verb : List UInt8
  argstr : List UInt8
  args : List (List UInt8)
  dobjstr : List UInt8
  dobj : Int
  prepstr : List UInt8
  prep : Option Nat
  iobjstr : List UInt8
  iobj : Int
  deriving DecidableEq, Repr

/-- The loop that skips a verb, in quotes or not. -/
def skipVerb : Bool → List UInt8 → List UInt8
  | _, [] => []
  | inQuotes, c :: rest =>
    if inQuotes ∨ c ≠ space then
      if c = doubleQuote then skipVerb (!inQuotes) rest
      else if c = backslash then
        match rest with
        | [] => []
        | _ :: rest => skipVerb inQuotes rest
      else skipVerb inQuotes rest
    else c :: rest

/-- The `switch` at the beginning: the buffer, and `argstr`. 58 and 59 are the characters `:`
and `;`. -/
def expandCommand (command : List UInt8) : List UInt8 × List UInt8 :=
  let finishSpecials (verb : String) := (asciiBytes verb ++ [space] ++ command.tail, command.tail)
  if command.head? = some doubleQuote then finishSpecials "say"
  else if command.head? = some 58 then finishSpecials "emote"
  else if command.head? = some 59 then finishSpecials "eval"
  else (command, (skipVerb false command).dropWhile (· = space))

/-- The words that the array has after a call. -/
def splitWords (words : Option WordTable) (line : List UInt8) : Option (List (List UInt8)) :=
  if h : 0 ∉ line then (parseIntoWords words ⟨line, h⟩).bind WordParser.strings else none

/-- `n` words from `argv + start` on. -/
def wordsFrom (argv : List (List UInt8)) (start n : Nat) : List (List UInt8) :=
  (argv.drop start).take n

/-! ## The words behind the verb -/

/-- What `skipVerb` leaves behind is the end of the line at an unquoted blank, or nothing. -/
lemma skipVerb_pieces (q : Bool) (line : List UInt8) : ∃ gone q',
    linePieces q line = gone ++ linePieces q' (skipVerb q line) ∧ .blank ∉ gone ∧
      (gone = [] → skipVerb q line = line) ∧
      (skipVerb q line = [] ∨ (q' = false ∧ (skipVerb q line).head? = some space)) ∧
      skipVerb q line <:+ line := by
  fun_induction skipVerb q line with
  | case1 q => exact ⟨[], q, rfl, by simp, fun _ => rfl, .inl rfl, List.suffix_refl _⟩
  | case2 q rest _ ih =>
    obtain ⟨gone, q', hp, hg, -, hend, hsuf⟩ := ih
    refine ⟨.dropped :: gone, q', ?_, by simp [hg], by simp, hend,
      hsuf.trans (List.suffix_cons _ _)⟩
    rw [linePieces_quote, hp]
    rfl
  | case3 q _ _ =>
    exact ⟨[.dropped], q, linePieces_backslash_end q, by simp, by simp, .inl rfl, List.nil_suffix⟩
  | case4 q d rest _ _ ih =>
    obtain ⟨gone, q', hp, hg, -, hend, hsuf⟩ := ih
    refine ⟨.dropped :: .char d :: gone, q', ?_, by simp [hg], by simp, hend,
      hsuf.trans ((List.suffix_cons _ _).trans (List.suffix_cons _ _))⟩
    rw [linePieces_backslash, hp]
    rfl
  | case5 q c rest hc hquote hback ih =>
    obtain ⟨gone, q', hp, hg, -, hend, hsuf⟩ := ih
    refine ⟨.char c :: gone, q', ?_, by simp [hg], by simp, hend,
      hsuf.trans (List.suffix_cons _ _)⟩
    rw [linePieces_char hquote hback hc, hp]
    rfl
  | case6 q c rest hc =>
    obtain ⟨hq, rfl⟩ : q = false ∧ c = space := by simpa using hc
    exact ⟨[], q, rfl, by simp, fun _ => rfl, .inr ⟨hq, rfl⟩, List.suffix_refl _⟩

lemma wordsOf_dropWhile (line : List UInt8) :
    wordsOf (line.dropWhile (· = space)) = wordsOf line := by
  induction line with
  | nil => rfl
  | cons c line ih =>
    by_cases hc : c = space
    · rw [List.dropWhile_cons_of_pos (by simpa using hc), ih, hc, wordsOf, wordsOf,
        linePieces_space, wordsBetween_blank]
    · rw [List.dropWhile_cons_of_neg (by simpa using hc)]

/-- Behind the verb the words go on with those of what is left. -/
lemma wordsOf_skipVerb {line : List UInt8} (hne : line ≠ []) (hs : line.head? ≠ some space) :
    ∃ verb, wordsOf line = verb :: wordsOf (skipVerb false line) := by
  obtain ⟨gone, q', hp, hg, hnil, hend, -⟩ := skipVerb_pieces false line
  have hgone : gone ≠ [] := by
    intro h
    rw [hnil h] at hend
    exact hend.elim hne fun h => hs h.2
  refine ⟨letters gone, ?_⟩
  rw [wordsOf, hp, wordsOf]
  obtain hend | ⟨rfl, hend⟩ := hend
  · rw [hend, linePieces_nil, linePieces_nil, List.append_nil, wordsBetween_word hg hgone]
    rfl
  · obtain ⟨rest, hrest⟩ : ∃ rest, skipVerb false line = space :: rest :=
      ⟨_, (List.cons_head?_tail hend).symm⟩
    rw [hrest, linePieces_space, wordsBetween_append_blank hg hgone, wordsBetween_blank]

/-- A plain word in front of a blank. -/
lemma wordsOf_plain {w : List UInt8} (hne : w ≠ [])
    (hw : ∀ c ∈ w, c ≠ doubleQuote ∧ c ≠ backslash ∧ c ≠ space) (rest : List UInt8) :
    wordsOf (w ++ [space] ++ rest) = w :: wordsOf rest := by
  have hpieces : linePieces false (w ++ space :: rest) =
      w.map .char ++ .blank :: linePieces false rest := by
    induction w with
    | nil => exact linePieces_space rest
    | cons c w ih =>
      obtain ⟨hquote, hback, hs⟩ := hw c List.mem_cons_self
      rw [List.cons_append, linePieces_char hquote hback (.inr hs)]
      by_cases hnil : w = []
      · subst hnil
        rw [List.nil_append, linePieces_space]
        rfl
      · rw [ih hnil fun d hd => hw d (List.mem_cons_of_mem _ hd)]
        rfl
  have hletters : letters (w.map .char) = w := by
    rw [letters, List.filterMap_map]
    exact List.filterMap_some
  rw [wordsOf, List.append_assoc, List.singleton_append, hpieces,
    wordsBetween_append_blank (by simp) (by simpa using hne), hletters]
  rfl

/-- The words of the buffer are a verb and the words of `argstr`. -/
lemma wordsOf_expandCommand {line : List UInt8} (hne : line ≠ [])
    (hs : line.head? ≠ some space) :
    ∃ verb, wordsOf (expandCommand line).1 = verb :: wordsOf (expandCommand line).2 := by
  unfold expandCommand
  dsimp only
  split_ifs
  · exact ⟨_, wordsOf_plain (by decide +kernel) (by decide +kernel) _⟩
  · exact ⟨_, wordsOf_plain (by decide +kernel) (by decide +kernel) _⟩
  · exact ⟨_, wordsOf_plain (by decide +kernel) (by decide +kernel) _⟩
  · rw [wordsOf_dropWhile]
    exact wordsOf_skipVerb hne hs

/-- Nothing that is cut out of the line has the byte 0. -/
lemma zero_notMem_expandCommand {line : List UInt8} (h0 : 0 ∉ line) :
    0 ∉ (expandCommand line).1 ∧ 0 ∉ (expandCommand line).2 := by
  have htail : 0 ∉ line.tail := fun h => h0 (List.mem_of_mem_tail h)
  have hbuf (verb : String) (hverb : 0 ∉ asciiBytes verb) :
      0 ∉ asciiBytes verb ++ [space] ++ line.tail := by
    rw [List.mem_append, List.mem_append, not_or, not_or]
    exact ⟨⟨hverb, by decide⟩, htail⟩
  unfold expandCommand
  dsimp only
  split_ifs
  · exact ⟨hbuf "say" (by decide), htail⟩
  · exact ⟨hbuf "emote" (by decide), htail⟩
  · exact ⟨hbuf "eval" (by decide), htail⟩
  · obtain ⟨-, -, -, -, -, -, hsuf⟩ := skipVerb_pieces false line
    exact ⟨h0, fun h => h0 (hsuf.mem (List.dropWhile_suffix _ |>.mem h))⟩

lemma splitWords_eq (words : Option WordTable) {line : List UInt8} (h0 : 0 ∉ line) :
    splitWords words line = some (wordsOf line) := by
  obtain ⟨s, hs, hstrings⟩ := exists_parseIntoWords words ⟨line, h0⟩
  rw [splitWords, dif_pos h0, hs]
  exact hstrings

namespace Db

variable {P : Type}

/-- The part of `parse_command` behind the call of `parse_into_words`. -/
def parseArgv (objects : Objects P) (user : Int) (argstr : List UInt8)
    (argv : List (List UInt8)) : Option (Option ParsedCommand) :=
  match argv with
  | [] => some none
  | verb :: args => do
    let argc := argv.length
    let found := if 1 < argc then dbFindPrep prepTable args else none
    let (pstart, pend) :=
      match found with
      | none => (argc, argc)
      | some f => (f.first + 1, f.last + 1)
    let prepstr := if found.isSome then buildString (wordsFrom argv pstart (pend - pstart + 1))
      else []
    let iobjstr := if found.isSome then
        buildString (wordsFrom argv (pend + 1) (argc - (pend + 1)))
      else []
    let iobj ← (if found.isSome then matchObject objects user iobjstr else some nothing)
    let dlen := pstart - 1
    let dobjstr := if dlen = 0 then [] else buildString (wordsFrom argv 1 dlen)
    let dobj ← (if dlen = 0 then some nothing else matchObject objects user dobjstr)
    return some
      { verb := verb, argstr := argstr, args := args, dobjstr := dobjstr, dobj := dobj,
        prepstr := prepstr, prep := found.map FoundPrep.prep, iobjstr := iobjstr, iobj := iobj }

/-- `parse_command`. The table of the prepositions is the one that `dbpriv_build_prep_table` has
made, and `words` is what is left of earlier calls. -/
def parseCommand (objects : Objects P) (words : Option WordTable) (command : CString)
    (user : Int) : Option (Option ParsedCommand) := do
  let (buf, argstr) := expandCommand (command.bytes.dropWhile (· = space))
  let argv ← splitWords words buf
  parseArgv objects user argstr argv

/-! ## How the parts fit together -/

/-- The words are those of the direct object, of the preposition and of the indirect object. -/
structure PartsOf (pc : ParsedCommand) (dobj prep iobj : List (List UInt8)) : Prop where
  args : pc.args = dobj ++ prep ++ iobj
  dobjstr : pc.dobjstr = buildString dobj
  prepstr : pc.prepstr = buildString prep
  iobjstr : pc.iobjstr = buildString iobj

/-- The words are an alias of the preposition, but for case. -/
def IsPrep (j : Nat) (prep : List (List UInt8)) : Prop :=
  ∃ aliases entry, prepTable[j]? = some aliases ∧ entry ∈ aliases ∧
    prep.map (List.map cmap) = entry.map (List.map cmap)

/-- The results of `parse_command` fit together. -/
structure FitsTogether (pc : ParsedCommand) : Prop where
  argstr : ∃ line : CString, line.bytes = pc.argstr ∧ ∀ words, ∃ s,
    parseIntoWords words line = some s ∧ s.strings = some pc.args
  noPrep : pc.prep = none → PartsOf pc pc.args [] []
  prep : ∀ j, pc.prep = some j → ∃ dobj prep iobj, PartsOf pc dobj prep iobj ∧ IsPrep j prep

section

variable {objects : Objects P} {user : Int} {argstr verb : List UInt8}
  {args : List (List UInt8)}

lemma wordsFrom_cons (start n : Nat) :
    wordsFrom (verb :: args) (start + 1) n = wordsFrom args start n := rfl

/-- The preposition that is found lies inside of the words. -/
lemma found_bounds {f : FoundPrep} (hf : dbFindPrep prepTable args = some f) :
    f.first ≤ f.last ∧ f.last < args.length ∧
      IsPrep f.prep (wordsFrom args f.first (f.last + 1 - f.first)) := by
  obtain ⟨aliases, entry, haliases, hm, hfind, hlast, -⟩ := dbFindPrep_eq_some hf
  have hat : AliasAt args f.first entry := aliasFits_false_iff.mp (List.find?_some hfind)
  have hpos := List.length_pos_iff.mpr (entry_ne_nil entry (List.mem_of_find?_eq_some hfind))
  have hle := hat.length_le
  simp only [List.length_map, List.length_drop] at hle
  refine ⟨by omega, by omega, aliases, entry, haliases, hm, ?_⟩
  have htake := List.prefix_iff_eq_take.mp hat
  rw [wordsFrom, show f.last + 1 - f.first = entry.length by omega, List.map_take]
  rw [List.length_map] at htake
  exact htake.symm

lemma Coherent.parseArgv_eq (hc : Coherent objects) (user : Int) (argstr verb : List UInt8)
    (args : List (List UInt8)) : ∃ pc, parseArgv objects user argstr (verb :: args) =
      some (some pc) ∧ pc.argstr = argstr ∧ pc.args = args ∧
      (pc.prep = none → PartsOf pc pc.args [] []) ∧
      ∀ j, pc.prep = some j → ∃ dobj prep iobj, PartsOf pc dobj prep iobj ∧ IsPrep j prep := by
  have hfound : (if 1 < (verb :: args).length then dbFindPrep prepTable args else none) =
      dbFindPrep prepTable args := by
    cases args with
    | nil => rfl
    | cons w args => exact if_pos (by simp)
  have hdobj (n : Nat) (w : List UInt8) : ∃ r,
      (if n = 0 then some nothing else matchObject objects user w) = some r := by
    split_ifs
    · exact ⟨nothing, rfl⟩
    · exact hc.exists_matchObject user w
  have hdobjstr (n : Nat) : (if n = 0 then [] else buildString (wordsFrom (verb :: args) 1 n)) =
      buildString (args.take n) := by
    split_ifs with hn
    · rw [hn]
      rfl
    · rfl
  rw [parseArgv, hfound]
  cases hf : dbFindPrep prepTable args with
  | none =>
    obtain ⟨r, hr⟩ := hdobj args.length (buildString args)
    refine ⟨ParsedCommand.mk verb argstr args (buildString args) r [] none [] nothing, ?_, rfl, rfl,
      fun _ => ?_, by rintro _ ⟨⟩⟩
    · simp only [Option.isSome_none, Bool.false_eq_true, if_false, List.length_cons,
        Nat.add_sub_cancel, hdobjstr, List.take_length, hr, Option.bind_eq_bind, Option.bind_some,
        Option.map_none]
      rfl
    · exact ⟨by simp, rfl, rfl, rfl⟩
  | some f =>
    obtain ⟨hle, hlt, hprep⟩ := found_bounds hf
    let iobj := args.drop (f.last + 1)
    obtain ⟨r, hr⟩ := hdobj f.first (buildString (args.take f.first))
    obtain ⟨r', hr'⟩ := hc.exists_matchObject user (buildString iobj)
    refine ⟨ParsedCommand.mk verb argstr args (buildString (args.take f.first)) r
      (buildString (wordsFrom args f.first (f.last + 1 - f.first))) (some f.prep)
      (buildString iobj) r', ?_, rfl, rfl, by rintro ⟨⟩, ?_⟩
    · have hlast : wordsFrom (verb :: args) (f.last + 1 + 1)
          ((verb :: args).length - (f.last + 1 + 1)) = iobj := by
        rw [wordsFrom_cons, wordsFrom]
        exact List.take_of_length_le (by simp)
      have hmiddle : wordsFrom (verb :: args) (f.first + 1) (f.last + 1 - (f.first + 1) + 1) =
          wordsFrom args f.first (f.last + 1 - f.first) := by
        rw [wordsFrom_cons, show f.last + 1 - (f.first + 1) + 1 = f.last + 1 - f.first by omega]
      simp only [Option.isSome_some, if_true, Nat.add_sub_cancel, hdobjstr, hlast, hmiddle,
        hr, hr', Option.bind_eq_bind, Option.bind_some, Option.map_some]
      rfl
    · rintro j hj
      cases hj
      refine ⟨args.take f.first, wordsFrom args f.first (f.last + 1 - f.first), iobj,
        ⟨?_, rfl, rfl, rfl⟩, hprep⟩
      have hdrop : iobj = (args.drop f.first).drop (f.last + 1 - f.first) := by
        rw [List.drop_drop, show f.first + (f.last + 1 - f.first) = f.last + 1 by omega]
      rw [hdrop, List.append_assoc, wordsFrom, List.take_append_drop, List.take_append_drop]

end

/-- Whatever the line, `parse_command` comes to its end; it returns a command unless there are only
blanks, and the parts of the command fit together. -/
theorem Reached.parseCommand_fits {db : Db P} (h : Reached db) (words : Option WordTable)
    (command : CString) (user : Int) :
    ∃ r, parseCommand db.objects words command user = some r ∧
      (r = none ↔ ∀ c ∈ command.bytes, c = space) ∧ ∀ pc, r = some pc → FitsTogether pc := by
  obtain ⟨line, hline⟩ : ∃ line, command.bytes.dropWhile (· = space) = line := ⟨_, rfl⟩
  have h0 : 0 ∉ line :=
    fun hm => command.nul_notMem ((List.dropWhile_suffix _).mem (hline ▸ hm))
  obtain ⟨hbuf, hargstr⟩ := zero_notMem_expandCommand h0
  rw [parseCommand, hline]
  simp only [splitWords_eq words hbuf, Option.bind_eq_bind, Option.bind_some]
  by_cases hne : line = []
  · subst hne
    refine ⟨none, rfl, ?_, by rintro _ ⟨⟩⟩
    simpa using List.dropWhile_eq_nil_iff.mp hline
  · have hs : line.head? ≠ some space := by
      intro hhead
      have hnot := List.head?_dropWhile_not (· = space) command.bytes
      rw [hline, hhead] at hnot
      simp at hnot
    obtain ⟨verb, hwords⟩ := wordsOf_expandCommand hne hs
    obtain ⟨pc, hpc, hpargstr, hpargs, hnone, hsome⟩ :=
      h.coherent.parseArgv_eq user (expandCommand line).2 verb (wordsOf (expandCommand line).2)
    rw [hwords]
    refine ⟨some pc, hpc, ?_, ?_⟩
    · simp only [reduceCtorEq, false_iff]
      intro hall
      exact hne (hline.symm.trans (List.dropWhile_eq_nil_iff.mpr (by simpa using hall)))
    · rintro _ ⟨⟩
      refine ⟨⟨⟨_, hargstr⟩, hpargstr.symm, fun words => ?_⟩, hnone, hsome⟩
      rw [hpargs]
      exact exists_parseIntoWords words ⟨_, hargstr⟩

/-- A command with a quoted name. -/
def putCommand : CString := ⟨asciiBytes "put lamp in \"#1 fan\"", by decide⟩

theorem Reached.parseCommand_fits_put : ∃ pc,
    parseCommand furnishedRoom none putCommand 1 = some (some pc) ∧ pc.prep = some 3 ∧
      pc.dobj = 2 ∧ FitsTogether pc := by
  obtain ⟨r, hr, hnone, hfits⟩ := reached_furnishedDb.parseCommand_fits none putCommand 1
  have hparsed : (parseCommand furnishedRoom none putCommand 1).map
      (Option.map fun pc => (pc.prep, pc.dobj)) = some (some (some 3, 2)) := by decide +kernel
  rw [show parseCommand furnishedRoom none putCommand 1 = some r from hr] at hparsed
  cases r with
  | none => simp at hparsed
  | some pc =>
    obtain ⟨hprep, hdobj⟩ : pc.prep = some 3 ∧ pc.dobj = 2 := by simpa using hparsed
    exact ⟨pc, hr, hprep, hdobj, hfits pc rfl⟩

end Db

end LambdaMOO
