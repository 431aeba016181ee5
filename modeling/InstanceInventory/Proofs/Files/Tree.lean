import InstanceInventory.Files.Tree

/-! # What the operations on files leave as it is

* `Files.follow`, `Path.target`: the place to which a path leads, if it leads anywhere.
* `Tree.fileAt?`: the file at a place, with its mode.
* `Tree.Leaves`: two states have the same file at a place, and no directory of the first is lost.
* `Tree.writeBytes_ok`, `Tree.makeDirectories_ok`, `Tree.copyFile_ok`: what an operation that
  succeeds has done, and that it leaves every other place.
* `Tree.hasDirectory_of_makeDirectories`: a directory that was made is there.
-/

namespace InstanceInventory.Files
set_option autoImplicit false

/-! ## Places -/

/-- The place to which parts lead from a place, whatever the files are. -/
def follow (before : Place) (parts : List String) : Place :=
  parts.foldl (fun place part => if part == ".." then place.dropLast else place ++ [part]) before

@[simp] theorem follow_nil (before : Place) : follow before [] = before := rfl

@[simp] theorem follow_cons (before : Place) (part : String) (parts : List String) :
    follow before (part :: parts) =
      follow (if part == ".." then before.dropLast else before ++ [part]) parts := rfl

theorem follow_append (before : Place) (parts more : List String) :
    follow before (parts ++ more) = follow (follow before parts) more :=
  List.foldl_append

/-- The place to which a path from the root leads, if it leads anywhere. -/
def Path.target (p : Path) : Place :=
  follow [] p.parts

namespace Tree
variable {t t' t'' : Tree} {p q : Place} {path : Path}

theorem eq_follow_of_placeFrom {before : Place} {parts : List String}
    (h : t.placeFrom before parts = .ok p) : p = follow before parts := by
  induction parts generalizing before with
  | nil => exact (Except.ok.inj h).symm
  | cons part parts ih =>
    unfold placeFrom at h
    split at h
    · cases h
    · cases h
    · split at h
      · cases h
      · exact ih h

theorem eq_target_of_place (h : t.place path = .ok p) : p = path.target := by
  unfold place at h
  split at h
  · cases h
  · exact eq_follow_of_placeFrom h

/-! ## Files at places -/

/-- The file at a place, with its mode. -/
def fileAt? (t : Tree) (p : Place) : Option (ByteArray × Nat) :=
  match t.node? p with
  | some (.file bytes mode) => some (bytes, mode)
  | _ => none

theorem hasDirectory_iff : t.hasDirectory p = true ↔ ∃ mode, t.node? p = some (.directory mode) := by
  unfold hasDirectory
  split
  · simp_all
  · simp_all

/-- Nothing stands at a place if neither a file nor a directory does. -/
theorem node?_eq_none_iff : t.node? p = none ↔ t.fileAt? p = none ∧ t.hasDirectory p = false := by
  unfold fileAt? hasDirectory
  cases t.node? p with
  | none => simp
  | some n => cases n <;> simp

theorem hasDirectory_root : t.hasDirectory [] = true := rfl

theorem find?_replace (es : List (Place × Node)) (n : Node) :
    (es.map fun e => if e.1 == p then (p, n) else e).find? (·.1 == q) =
      if q = p then (es.find? (·.1 == p)).map fun _ => (p, n) else es.find? (·.1 == q) := by
  induction es with
  | nil => simp
  | cons e es ih =>
    by_cases hep : e.1 = p
    · by_cases hqp : q = p
      · simp [hep, hqp]
      · have hpq : ¬ p = q := fun h => hqp h.symm
        simp_all
    · by_cases heq : e.1 = q
      · have hqp : ¬ q = p := fun h => hep (heq.trans h)
        simp [heq, hqp]
      · simp_all

/-- A node that is put at a place stands there, and every other place stays. -/
theorem node?_put (n : Node) (hp : p ≠ []) :
    (t.put p n).node? q = if q = p then some n else t.node? q := by
  by_cases hroot : q = []
  · subst hroot
    rw [if_neg hp.symm]
    rfl
  have hq : q.isEmpty = false := by simpa using hroot
  unfold node?
  simp only [hq, Bool.false_eq_true, if_false, put]
  cases hany : t.entries.any (·.1 == p) with
  | true =>
    have hsome : (t.entries.find? (·.1 == p)).isSome := by
      rw [List.find?_isSome]
      exact List.any_eq_true.1 hany
    obtain ⟨found, hfound⟩ := Option.isSome_iff_exists.1 hsome
    rw [if_pos rfl, find?_replace]
    by_cases hqp : q = p
    · simp [hqp, hfound]
    · simp [hqp]
  | false =>
    have hnone : t.entries.find? (·.1 == p) = none := by
      simpa [List.find?_eq_none] using hany
    by_cases hqp : q = p
    · simp [hqp, hnone]
    · have hpq : ¬ p = q := fun h => hqp h.symm
      simp [hqp, hpq]

/-- Two states have the same file at a place, and no directory of the first is lost. -/
structure Leaves (p : Place) (t t' : Tree) : Prop where
  file : t'.fileAt? p = t.fileAt? p
  directory : ∀ q, t.hasDirectory q = true → t'.hasDirectory q = true

theorem Leaves.refl (p : Place) (t : Tree) : t.Leaves p t := ⟨rfl, fun _ => id⟩

theorem Leaves.trans (h : Leaves p t t') (h' : Leaves p t' t'') : Leaves p t t'' :=
  ⟨h'.file.trans h.file, fun q hq => h'.directory q (h.directory q hq)⟩

/-- A file that is put where no directory stands leaves every other place. -/
theorem leaves_put {bytes : ByteArray} {mode : Nat} (hq : t.hasDirectory q = false) (hpq : p ≠ q) :
    t.Leaves p (t.put q (.file bytes mode)) := by
  have hroot : q ≠ [] := by
    rintro rfl
    rw [hasDirectory_root] at hq
    cases hq
  refine ⟨?_, fun d hd => ?_⟩
  · simp only [fileAt?, node?_put _ hroot, if_neg hpq]
  · have hdq : d ≠ q := by
      rintro rfl
      rw [hd] at hq
      cases hq
    simpa only [hasDirectory, node?_put _ hroot, if_neg hdq] using hd

theorem fileAt?_put {bytes : ByteArray} {mode : Nat} (hq : t.hasDirectory q = false) :
    (t.put q (.file bytes mode)).fileAt? q = some (bytes, mode) := by
  have hroot : q ≠ [] := by
    rintro rfl
    rw [hasDirectory_root] at hq
    cases hq
  simp only [fileAt?, node?_put _ hroot, if_pos]

/-! ## Where paths lead -/

theorem placeFrom_mono (h : ∀ q, t.hasDirectory q = true → t'.hasDirectory q = true)
    {before : Place} {parts : List String} (hp : t.placeFrom before parts = .ok p) :
    t'.placeFrom before parts = .ok p := by
  induction parts generalizing before with
  | nil => exact hp
  | cons part parts ih =>
    unfold placeFrom at hp ⊢
    cases hn : t.node? before with
    | none => simp [hn] at hp
    | some n =>
      cases n with
      | file bytes mode => simp [hn] at hp
      | directory mode =>
        obtain ⟨mode', hn'⟩ := hasDirectory_iff.1 (h before (hasDirectory_iff.2 ⟨mode, hn⟩))
        simp only [hn] at hp
        simp only [hn']
        split at hp
        · cases hp
        · rename_i hlen
          rw [if_neg hlen]
          exact ih hp

theorem place_mono (h : ∀ q, t.hasDirectory q = true → t'.hasDirectory q = true)
    (hp : t.place path = .ok p) : t'.place path = .ok p := by
  unfold place at hp ⊢
  split at hp
  · cases hp
  · exact placeFrom_mono h hp

theorem placeFrom_append {before : Place} {parts : List String} {name : String} :
    t.placeFrom before (parts ++ [name]) = .ok p ↔
      t.placeFrom before parts = .ok (follow before parts) ∧
        t.hasDirectory (follow before parts) = true ∧ name.utf8ByteSize ≤ longestName ∧
        p = follow before (parts ++ [name]) := by
  induction parts generalizing before with
  | nil =>
    cases hn : t.node? before with
    | none => simp [placeFrom, hn, hasDirectory]
    | some n =>
      cases n with
      | file bytes mode => simp [placeFrom, hn, hasDirectory]
      | directory mode =>
        by_cases hlen : longestName < name.utf8ByteSize
        · simp [placeFrom, hn, hasDirectory, hlen, Nat.not_le.2 hlen]
        · simp [placeFrom, hn, hasDirectory, hlen, Nat.not_lt.1 hlen, eq_comm (a := p)]
  | cons part parts ih =>
    rw [List.cons_append, placeFrom, placeFrom]
    split
    · simp
    · simp
    · split
      · simp
      · exact ih

/-- Above the place to which parts lead there are directories only. -/
theorem hasDirectory_of_placeFrom {before : Place} {parts : List String}
    (hbefore : ∀ r, r <+: before → r ≠ before → t.hasDirectory r = true)
    (h : t.placeFrom before parts = .ok p) : ∀ r, r <+: p → r ≠ p → t.hasDirectory r = true := by
  induction parts generalizing before with
  | nil => exact Except.ok.inj h ▸ hbefore
  | cons part parts ih =>
    unfold placeFrom at h
    split at h
    · cases h
    · cases h
    · next mode hn =>
      have hdir : ∀ r, r <+: before → t.hasDirectory r = true := by
        intro r hr
        by_cases heq : r = before
        · rw [heq]
          exact hasDirectory_iff.2 ⟨mode, hn⟩
        · exact hbefore r hr heq
      split at h
      · cases h
      · refine ih (fun r hr hne => hdir r ?_) h
        split at hr
        · exact hr.trans (List.dropLast_prefix before)
        · next hpart =>
          rw [if_neg hpart] at hne
          exact (List.prefix_concat_iff.1 hr).resolve_left hne

/-- A path whose last part is a step upward leads to a directory. -/
theorem hasDirectory_of_place_up {slashes : Nat} {init : List String}
    (h : t.place ⟨slashes, init ++ [".."]⟩ = .ok p) : t.hasDirectory p = true := by
  unfold place at h
  split at h
  · cases h
  · obtain ⟨hinit, hdir, -, rfl⟩ := placeFrom_append.1 h
    rw [follow_append]
    generalize follow [] init = q at hinit hdir
    show t.hasDirectory q.dropLast = true
    by_cases hq : q = []
    · subst hq
      rfl
    · refine hasDirectory_of_placeFrom (fun r hr hne => absurd (List.prefix_nil.1 hr) hne) hinit _
        (List.dropLast_prefix q) fun heq => ?_
      have hlen := congrArg List.length heq
      rw [List.length_dropLast] at hlen
      have hpos := List.length_pos_iff.2 hq
      omega

theorem utf8ByteSize_text_le (slashes : Nat) (init : List String) {long short : String}
    (h : short.utf8ByteSize ≤ long.utf8ByteSize) :
    (Path.text ⟨slashes, init ++ [short]⟩).utf8ByteSize ≤
      (Path.text ⟨slashes, init ++ [long]⟩).utf8ByteSize := by
  have htext : ∀ name, Path.text ⟨slashes, init ++ [name]⟩ =
      String.ofList (List.replicate slashes '/') ++ "/".intercalate (init ++ [name]) := by
    intro name
    simp [Path.text]
  rw [htext, htext, String.utf8ByteSize_append, String.utf8ByteSize_append]
  rcases List.eq_nil_or_concat init with rfl | ⟨_, _, hinit⟩
  · simp only [List.nil_append, String.intercalate_singleton]
    omega
  · have hne : init ≠ [] := by simp [hinit]
    simp only [String.intercalate_append_of_ne_nil hne (List.cons_ne_nil _ _),
      String.intercalate_singleton, String.utf8ByteSize_append]
    omega

/-- A path without its last part is no longer than the whole, but for the dot that stands for no
parts. -/
theorem utf8ByteSize_init_le (slashes : Nat) (init : List String) (name : String) :
    (Path.text ⟨slashes, init⟩).utf8ByteSize ≤
      max 1 (Path.text ⟨slashes, init ++ [name]⟩).utf8ByteSize := by
  have htext : Path.text ⟨slashes, init ++ [name]⟩ =
      String.ofList (List.replicate slashes '/') ++ "/".intercalate (init ++ [name]) := by
    simp [Path.text]
  unfold Path.text
  split
  · exact Nat.le_max_left ..
  · refine Nat.le_trans ?_ (Nat.le_max_right ..)
    rw [← Path.text, htext, String.utf8ByteSize_append, String.utf8ByteSize_append]
    rcases List.eq_nil_or_concat init with rfl | ⟨_, _, hinit⟩
    · simp
    · have hne : init ≠ [] := by simp [hinit]
      simp only [String.intercalate_append_of_ne_nil hne (List.cons_ne_nil _ _),
        String.utf8ByteSize_append]
      omega

/-- A path with a longer last part that leads somewhere leaves room for one with a shorter one. -/
theorem place_concat {slashes : Nat} {init : List String} {long short : String}
    (h : t.place ⟨slashes, init ++ [long]⟩ = .ok p)
    (hnull : '\x00' ∈ short.toList → '\x00' ∈ long.toList)
    (hlen : short.utf8ByteSize ≤ long.utf8ByteSize) :
    t.place ⟨slashes, init ++ [short]⟩ = .ok (Path.target ⟨slashes, init ++ [short]⟩) := by
  have hflaw : pathFlaw? ⟨slashes, init ++ [long]⟩ = none := by
    unfold place at h
    split at h
    · cases h
    · assumption
  have hflaw' : pathFlaw? ⟨slashes, init ++ [short]⟩ = none := by
    have hsize := utf8ByteSize_text_le slashes init hlen
    unfold pathFlaw? at hflaw ⊢
    split at hflaw
    · cases hflaw
    · rename_i hclear
      split at hflaw
      · cases hflaw
      · rename_i hshort
        rw [if_neg, if_neg (by omega)]
        simp only [Path.holdsNull, List.any_append, List.any_cons, List.any_nil, Bool.or_false,
          Bool.or_eq_true, List.contains_iff_mem, not_or] at hclear ⊢
        exact ⟨hclear.1, fun hmem => hclear.2 (hnull hmem)⟩
  simp only [place, hflaw, hflaw'] at h ⊢
  obtain ⟨hinit, hdir, hfit, -⟩ := placeFrom_append.1 h
  exact placeFrom_append.2 ⟨hinit, hdir, Nat.le_trans hlen hfit, rfl⟩

/-- Above the place to which a path leads there is a directory, to which the path without its last
part leads. -/
theorem place_init {slashes : Nat} {init : List String} {name : String}
    (h : t.place ⟨slashes, init ++ [name]⟩ = .ok p) :
    t.place ⟨slashes, init⟩ = .ok (Path.target ⟨slashes, init⟩) ∧
      t.hasDirectory (Path.target ⟨slashes, init⟩) = true := by
  unfold place at h
  split at h
  · cases h
  · next hflaw =>
    obtain ⟨hinit, hdir, -, -⟩ := placeFrom_append.1 h
    have hflaw' : pathFlaw? ⟨slashes, init⟩ = none := by
      unfold pathFlaw? at hflaw ⊢
      split at hflaw
      · cases hflaw
      · next hclear =>
        split at hflaw
        · cases hflaw
        · next hshort =>
          rw [if_neg, if_neg]
          · have := utf8ByteSize_init_le slashes init name
            unfold longestPath at hshort ⊢
            omega
          · simp only [Path.holdsNull, List.any_append, Bool.or_eq_true, not_or] at hclear ⊢
            exact hclear.1
    refine ⟨?_, hdir⟩
    simp only [place, hflaw']
    exact hinit

/-- The beginning of a path that leads somewhere leads to a directory. -/
theorem place_append {slashes : Nat} {init more : List String}
    (h : t.place ⟨slashes, init ++ more⟩ = .ok p) (hmore : more ≠ []) :
    t.place ⟨slashes, init⟩ = .ok (Path.target ⟨slashes, init⟩) ∧
      t.hasDirectory (Path.target ⟨slashes, init⟩) = true := by
  induction more generalizing init with
  | nil => exact absurd rfl hmore
  | cons part more ih =>
    by_cases hnil : more = []
    · subst hnil
      exact place_init h
    · rw [List.append_cons] at h
      exact place_init (ih h hnil).1

/-- A path leads to a file with certain bytes and a certain mode. -/
theorem file_eq_ok {content : ByteArray × Nat} :
    t.file path = .ok content ↔
      t.place path = .ok path.target ∧ t.fileAt? path.target = some content := by
  unfold file
  cases hplace : t.place path with
  | error e => simp [bind, Except.bind]
  | ok place =>
    obtain rfl := eq_target_of_place hplace
    simp only [bind, Except.bind, fileAt?, pure, Except.pure]
    cases hn : t.node? path.target with
    | none => simp [throw, throwThe, MonadExceptOf.throw]
    | some n => cases n <;> simp [throw, throwThe, MonadExceptOf.throw]

theorem readText_eq_ok {text : String} :
    t.readText path = .ok text ↔
      ∃ content, t.file path = .ok content ∧
        ∃ raw, String.fromUTF8? content.1 = some raw ∧ text = Text.unifyNewlines raw := by
  unfold readText
  cases hfile : t.file path with
  | error e => simp [bind, Except.bind]
  | ok content =>
    simp only [bind, Except.bind, Except.ok.injEq, exists_eq_left']
    split
    · rename_i raw hraw
      rw [hraw]
      simp [pure, Except.pure, eq_comm]
    · rename_i hraw
      rw [hraw]
      simp [throw, throwThe, MonadExceptOf.throw]

theorem Leaves.file_eq_ok {content : ByteArray × Nat} (h : t.Leaves path.target t')
    (hf : t.file path = .ok content) : t'.file path = .ok content := by
  obtain ⟨hplace, hat⟩ := Tree.file_eq_ok.1 hf
  exact Tree.file_eq_ok.2 ⟨place_mono h.directory hplace, h.file.trans hat⟩

/-- A path that is found to lead to a file leads to one. -/
theorem exists_file_of_isFile (h : t.isFile path = .ok true) :
    ∃ content, t.file path = .ok content := by
  unfold isFile look at h
  cases hplace : t.place path with
  | error e =>
    have hat : t.at? path = none := by
      unfold at?
      rw [hplace]
    cases e <;> simp [hplace, hat, Except.map] at h
  | ok place =>
    have hp := eq_target_of_place hplace
    subst hp
    have hat : t.at? path = t.node? path.target := by
      unfold at?
      rw [hplace]
    simp only [hplace, hat, Except.map, Except.ok.injEq] at h
    split at h
    · rename_i bytes mode hn
      exact ⟨(bytes, mode), Tree.file_eq_ok.2 ⟨hplace, by simp [fileAt?, hn]⟩⟩
    · cases h

/-- A path that leads to a file is found to. -/
theorem isFile_of_file {content : ByteArray × Nat} (h : t.file path = .ok content) :
    t.isFile path = .ok true := by
  obtain ⟨hplace, hat⟩ := Tree.file_eq_ok.1 h
  have hn : ∃ bytes mode, t.node? path.target = some (.file bytes mode) := by
    unfold fileAt? at hat
    split at hat
    · exact ⟨_, _, by assumption⟩
    · cases hat
  obtain ⟨bytes, mode, hn⟩ := hn
  simp [isFile, look, at?, hplace, hn, Except.map]

theorem mem_of_node? {n : Node} (h : t.node? p = some n) (hroot : p ≠ []) :
    p ∈ t.entries.map Prod.fst := by
  have hp : p.isEmpty = false := by simpa using hroot
  rw [node?, hp, if_neg Bool.false_ne_true, Option.map_eq_some_iff] at h
  obtain ⟨e, he, -⟩ := h
  have hat : (e.1 == p) = true := List.find?_some (p := fun e : Place × Node => e.1 == p) he
  exact List.mem_map.2 ⟨e, List.mem_of_find?_eq_some he, beq_iff_eq.1 hat⟩

theorem isThere_of_node? {n : Node} (hplace : t.place path = .ok path.target)
    (h : t.node? path.target = some n) : t.isThere path = .ok true := by
  simp [isThere, look, at?, hplace, h, Except.map]

theorem node?_of_isThere (h : t.isThere path = .ok true) : ∃ n, t.node? path.target = some n := by
  cases hplace : t.place path with
  | error e => cases e <;> simp [isThere, look, at?, hplace, Except.map] at h
  | ok place =>
    obtain rfl := eq_target_of_place hplace
    exact Option.isSome_iff_exists.1 (by simpa [isThere, look, at?, hplace, Except.map] using h)

theorem exists_file_of_at? {bytes : ByteArray} {mode : Nat}
    (h : t.at? path = some (.file bytes mode)) : ∃ content, t.file path = .ok content := by
  unfold at? at h
  cases hplace : t.place path with
  | error e => simp [hplace] at h
  | ok place =>
    obtain rfl := eq_target_of_place hplace
    simp only [hplace] at h
    exact ⟨(bytes, mode), Tree.file_eq_ok.2 ⟨hplace, by simp [fileAt?, h]⟩⟩

theorem exists_at?_of_file {content : ByteArray × Nat} (h : t.file path = .ok content) :
    ∃ bytes mode, t.at? path = some (.file bytes mode) := by
  obtain ⟨hplace, hfile⟩ := file_eq_ok.1 h
  simp only [at?, hplace]
  unfold fileAt? at hfile
  split at hfile
  · next bytes mode hnode => exact ⟨bytes, mode, hnode⟩
  · cases hfile

theorem isFile_ne_error (hplace : t.place path = .ok path.target) (e : FileFault) :
    t.isFile path ≠ .error e := by
  simp [isFile, look, hplace, Except.map]

/-! ## Operations -/

/-- A file that is written keeps the mode that it had, and every other place stays. -/
theorem writeBytes_ok {bytes : ByteArray} (h : t.writeBytes path bytes = .ok t') :
    t'.file path = .ok (bytes, ((t.fileAt? path.target).map Prod.snd).getD defaultMode) ∧
      ∀ p, p ≠ path.target → t.Leaves p t' := by
  unfold writeBytes at h
  cases hplace : t.place path with
  | error e => simp [hplace, bind, Except.bind] at h
  | ok place =>
    obtain rfl := eq_target_of_place hplace
    have hput : ∃ mode, t' = t.put path.target (.file bytes mode) ∧
        t.hasDirectory path.target = false ∧
        mode = ((t.fileAt? path.target).map Prod.snd).getD defaultMode := by
      simp only [hplace, bind, Except.bind] at h
      split at h
      · cases h
      · rename_i mode hn
        exact ⟨mode, (Except.ok.inj h).symm, by simp [hasDirectory, hn], by simp [fileAt?, hn]⟩
      · rename_i hn
        split at h
        · exact ⟨defaultMode, (Except.ok.inj h).symm, by simp [hasDirectory, hn],
            by simp [fileAt?, hn]⟩
        · cases h
    obtain ⟨mode, rfl, hdir, rfl⟩ := hput
    refine ⟨Tree.file_eq_ok.2 ⟨?_, fileAt?_put hdir⟩, fun p hp => leaves_put hdir hp⟩
    refine place_mono (fun q hq => ?_) hplace
    by_cases hqt : q = path.target
    · rw [hqt, hdir] at hq
      cases hq
    · exact (leaves_put hdir hqt).directory q hq

theorem makeDirectory_ok (h : t.makeDirectory path = .ok t') : t.Leaves p t' := by
  unfold makeDirectory at h
  cases hplace : t.place path with
  | error e => simp [hplace, bind, Except.bind] at h
  | ok place =>
    simp only [hplace, bind, Except.bind] at h
    cases hn : t.node? place with
    | some n => simp [hn, throw, throwThe, MonadExceptOf.throw] at h
    | none =>
      have hroot : place ≠ [] := by
        rintro rfl
        cases hn
      simp only [hn] at h
      split at h
      · obtain rfl := Except.ok.inj h
        refine ⟨?_, fun q hq => ?_⟩
        · by_cases hp : p = place
          · subst hp
            simp [fileAt?, node?_put _ hroot, hn, newDirectory]
          · simp [fileAt?, node?_put _ hroot, hp]
        · by_cases hqp : q = place
          · simp [hasDirectory, node?_put _ hroot, hqp, newDirectory]
          · simpa [hasDirectory, node?_put _ hroot, hqp] using hq
      · cases h

/-- Making directories leaves every file. -/
theorem makeDirectories_ok (h : t.makeDirectories path = .ok t') : t.Leaves p t' := by
  have hparts : ∀ n (u : Tree), u.makeParts path n = .ok t' → u.Leaves p t' := by
    intro n
    induction n with
    | zero =>
      intro u hu
      obtain rfl := Except.ok.inj hu
      exact .refl p u
    | succ n ih =>
      intro u hu
      simp only [makeParts] at hu
      split at hu
      · exact ih u hu
      · split at hu
        · cases hu
        · cases hu
      · cases hd : u.makeDirectory _ with
        | error e =>
          rw [hd] at hu
          cases hu
        | ok v =>
          rw [hd] at hu
          exact (makeDirectory_ok hd).trans (ih v hu)
  unfold makeDirectories at h
  split at h
  · cases h
  · exact hparts _ t h

/-- A file that stands in its place can be written anew. -/
theorem writeBytes_ne_error {content : ByteArray × Nat} {bytes : ByteArray}
    (h : t.file path = .ok content) (e : FileFault) : t.writeBytes path bytes ≠ .error e := by
  obtain ⟨hplace, hfile⟩ := Tree.file_eq_ok.1 h
  unfold writeBytes
  unfold fileAt? at hfile
  split at hfile
  · next old mode hn =>
    simp [hplace, hn, bind, Except.bind, pure, Except.pure]
  · cases hfile

theorem hasDirectory_of_at? {mode : Nat} (h : t.at? path = some (.directory mode)) :
    t.hasDirectory path.target = true := by
  unfold at? at h
  split at h
  · next place hplace =>
    obtain rfl := eq_target_of_place hplace
    exact hasDirectory_iff.2 ⟨mode, h⟩
  · cases h

theorem hasDirectory_of_makeDirectory (h : t.makeDirectory path = .ok t') :
    t'.hasDirectory path.target = true := by
  unfold makeDirectory at h
  cases hplace : t.place path with
  | error e => simp [hplace, bind, Except.bind] at h
  | ok place =>
    obtain rfl := eq_target_of_place hplace
    simp only [hplace, bind, Except.bind] at h
    cases hn : t.node? path.target with
    | some n => simp [hn, throw, throwThe, MonadExceptOf.throw] at h
    | none =>
      have hroot : path.target ≠ [] := by
        intro hroot
        rw [hroot] at hn
        cases hn
      simp only [hn] at h
      split at h
      · obtain rfl := Except.ok.inj h
        simp [hasDirectory, node?_put _ hroot, newDirectory]
      · cases h

/-- A directory that was made is there. -/
theorem hasDirectory_of_makeDirectories (h : t.makeDirectories path = .ok t') :
    t'.hasDirectory path.target = true := by
  have hparts : ∀ n (u : Tree), u.makeParts path (n + 1) = .ok t' →
      t'.hasDirectory path.target = true := by
    intro n
    induction n with
    | zero =>
      intro u hu
      have hwhole : { path with parts := path.parts.take (path.parts.length - 0) } = path := by
        rw [Nat.sub_zero, List.take_length]
      rw [makeParts, hwhole] at hu
      split at hu
      · next mode hat =>
        obtain rfl := Except.ok.inj hu
        exact hasDirectory_of_at? hat
      · cases hu
      · cases hd : u.makeDirectory path with
        | error e =>
          rw [hd] at hu
          cases hu
        | ok v =>
          rw [hd] at hu
          obtain rfl := Except.ok.inj hu
          exact hasDirectory_of_makeDirectory hd
    | succ n ih =>
      intro u hu
      rw [makeParts] at hu
      split at hu
      · exact ih u hu
      · cases hu
      · cases hd : u.makeDirectory _ with
        | error e =>
          rw [hd] at hu
          cases hu
        | ok v =>
          rw [hd] at hu
          exact ih v hu
  unfold makeDirectories at h
  split at h
  · cases h
  · cases hlength : path.parts.length with
    | zero =>
      rw [Path.target, List.length_eq_zero_iff.1 hlength]
      exact hasDirectory_root
    | succ n => exact hparts n t (hlength ▸ h)

/-- Nothing is made where the directories stand already. -/
theorem makeDirectories_standing {slashes : Nat} {init : List String} {name : String}
    (h : t.place ⟨slashes, init ++ [name]⟩ = .ok p) : t.makeDirectories ⟨slashes, init⟩ = .ok t := by
  have hparts : ∀ n, t.makeParts ⟨slashes, init⟩ n = .ok t := by
    intro n
    induction n with
    | zero => rfl
    | succ n ih =>
      have hsplit : init.take (init.length - n) ++ (init.drop (init.length - n) ++ [name]) =
          init ++ [name] := by
        rw [← List.append_assoc, List.take_append_drop]
      rw [← hsplit] at h
      obtain ⟨hplace, hdir⟩ := place_append h (by simp)
      obtain ⟨mode, hnode⟩ := hasDirectory_iff.1 hdir
      simp only [makeParts, at?, hplace, hnode]
      exact ih
  have hplace := (place_init h).1
  unfold place at hplace
  unfold makeDirectories
  split at hplace
  · cases hplace
  · exact hparts _

/-- A copy holds the bytes of its source and its mode, stands at another place than the source, and
every other place stays. -/
theorem copyFile_ok {source target copy : Path} (h : t.copyFile source target = .ok (t', copy)) :
    (copy = if t.leadsToDirectory target then target.child source.name else target) ∧
      t.place copy = .ok copy.target ∧
      (∃ content, t.file source = .ok content ∧ t'.file copy = .ok content) ∧
      copy.target ≠ source.target ∧ ∀ p, p ≠ copy.target → t.Leaves p t' := by
  unfold copyFile at h
  cases hsource : t.file source with
  | error e => simp [hsource, bind, Except.bind] at h
  | ok content =>
    obtain ⟨bytes, mode⟩ := content
    simp only [hsource, bind, Except.bind] at h
    generalize (if t.leadsToDirectory target then target.child source.name else target) = path at h ⊢
    cases hplace : t.place path with
    | error e => simp [hplace] at h
    | ok place =>
      obtain rfl := eq_target_of_place hplace
      have hsplace := (Tree.file_eq_ok.1 hsource).1
      simp only [hplace, hsplace] at h
      by_cases hsame : path.target = source.target
      · simp [hsame, throw, throwThe, MonadExceptOf.throw] at h
      · have hput : t.hasDirectory path.target = false ∧
            t' = t.put path.target (.file bytes mode) ∧ copy = path := by
          simp only [beq_iff_eq, hsame, if_false] at h
          unfold hasDirectory
          split at h
          · cases h
          · rename_i hn
            split at h
            · obtain ⟨rfl, rfl⟩ := Prod.mk.inj (Except.ok.inj h)
              exact ⟨rfl, rfl, rfl⟩
            · cases h
        obtain ⟨hdir, rfl, rfl⟩ := hput
        refine ⟨rfl, hplace, ⟨(bytes, mode), rfl, Tree.file_eq_ok.2 ⟨?_, fileAt?_put hdir⟩⟩, hsame,
          fun p hp => leaves_put hdir hp⟩
        refine place_mono (fun q hq => ?_) hplace
        by_cases hqt : q = copy.target
        · rw [hqt, hdir] at hq
          cases hq
        · exact (leaves_put hdir hqt).directory q hq

/-- A copy under a path at whose place nothing stands. -/
theorem copyFile_free {source target copy : Path} (h : t.copyFile source target = .ok (t', copy))
    (hfree : t.place target = .ok target.target → t.node? target.target = none) :
    copy = target ∧ t.node? target.target = none ∧
      (∃ content, t.file source = .ok content ∧ t'.file target = .ok content) ∧
      ∀ p, p ≠ target.target → t.Leaves p t' := by
  obtain ⟨hcopy, hplace, hcontent, -, hothers⟩ := copyFile_ok h
  have hinto : t.leadsToDirectory target = false := by
    unfold leadsToDirectory at?
    cases htarget : t.place target with
    | error e => rfl
    | ok place =>
      obtain rfl := eq_target_of_place htarget
      simp [hfree htarget]
  rw [hinto, if_neg Bool.false_ne_true] at hcopy
  subst hcopy
  exact ⟨rfl, hfree hplace, hcontent, hothers⟩

end Tree
end InstanceInventory.Files
