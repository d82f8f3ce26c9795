import RouteFleet.Command.Run
import RouteFleet.Proofs.File.System
import RouteFleet.Proofs.Hcl.Line
import RouteFleet.Proofs.Settings.Document

/-! # Reading settings to start from

A starter puts its folder between quotes as it is. Without quotes, backslashes and beginnings of parts to
be computed, a folder spells itself there, and the starter is read line by line as what it stands for
(`Starter.ofText?_text`). With a quote or a backslash in it, the folder is not given back, whatever the
rest of it makes of the file: nothing that is spelled between two quotes of the starter says it
(`Starter.ne_of_spells`), and what settings have for a folder is spelled there, stands on lines of its own,
or would have to be computed. So it is for what is loaded after a start (`Session.load_init`).
-/

namespace RouteFleet.Starter

open Hcl ReadM Text

/-! ## The text -/

/-- What stands before the folder of a starter and its quotes. -/
def lead : List Char := "server".toList ++ (" ".toList ++ '\x7b' :: '\n' ::
  ("  ".toList ++ ("config_dir".toList ++ ("    ".toList ++ ['=', ' ']))))

/-- The line with the certificate resolver. -/
def resolverLine : List Char := "  ".toList ++ ("cert_resolver".toList ++ (" ".toList ++ '=' :: ' ' :: '"' ::
  ("http01".toList ++ ['"'])))

/-- The line with the port. -/
def portLine : List Char := "  ".toList ++ ("listen_port".toList ++ ("   ".toList ++
  ['=', ' ', '8', '0', '9', '9']))

/-- What stands after all lines that set something. -/
def closing : List Char :=
  ("\n" ++
    "  # Enables forward auth for routes that ask for it.\n" ++
    "  # auth_endpoint = \"https://auth.example.com/authorize\"\n" ++
    "\x7d\n").toList

/-- What stands after the folder of a starter and its quotes. -/
def tail : List Char := '\n' :: (resolverLine ++ '\n' :: (portLine ++ '\n' :: closing))

theorem toList_text (configDir : String) :
    (text configDir).toList = lead ++ ('"' :: configDir.toList ++ '"' :: tail) := by
  have hserver : "server \x7b\n".toList = "server".toList ++ (" ".toList ++ ['\x7b', '\n']) := by
    decide +kernel
  have hfolder : "  config_dir    = \"".toList =
      "  ".toList ++ ("config_dir".toList ++ ("    ".toList ++ ['=', ' ', '"'])) := by decide +kernel
  have hclose : "\"\n".toList = ['"', '\n'] := by decide +kernel
  have hresolver : "  cert_resolver = \"http01\"\n".toList = resolverLine ++ ['\n'] := by decide +kernel
  have hport : "  listen_port   = 8099\n".toList = portLine ++ ['\n'] := by decide +kernel
  unfold text lead tail closing
  simp only [String.toList_append, hserver, hfolder, hclose, hresolver, hport, List.append_assoc,
    List.cons_append, List.nil_append]

theorem lead_append (cs : List Char) : lead ++ cs = "server".toList ++ (" ".toList ++
    '\x7b' :: '\n' :: ("  ".toList ++ ("config_dir".toList ++ ("    ".toList ++ '=' :: ' ' :: cs)))) := by
  unfold lead
  simp only [List.append_assoc, List.cons_append, List.nil_append]

/-- The settings that a starter stands for. -/
def settings (configDir : String) : Settings :=
  { configDir := configDir, certResolver := "http01", listenPort := 8099 }

/-! ## Reading a plain text -/

theorem takes_closing (fuel : Nat) : Takes (body true (fuel + 1)) closing [] ['\n'] := by
  have hgap : gapLength true closing.length closing = 111 := by decide +kernel
  have hdrop : closing.drop 111 = ['\x7d', '\n'] := by decide +kernel
  exact takes_body_close (hdrop ▸ takes_gap hgap)

theorem takes_port (fuel : Nat) : Takes (body true (fuel + 2)) (portLine ++ '\n' :: closing)
    [.attribute "listen_port" (.integer 8099)] ['\n'] := by
  have hnumber : ofNumeral? ['8', '0', '9', '9'] = some (.integer 8099) := rfl
  have hprimary : ∀ fuel, ('8' :: '0' :: '9' :: '9' :: '\n' :: closing).length < fuel →
      Takes (primary .outermost fuel) ('8' :: '0' :: '9' :: '9' :: '\n' :: closing) (.integer 8099)
        ('\n' :: closing) := by
    intro fuel hfuel
    cases fuel with
    | zero => exact absurd hfuel (Nat.not_lt_zero _)
    | succ fuel =>
      rw [primary]
      refine (takes_rest _).bind ((takes_rest _).bind ((takes_lift hnumber _).bind ?_))
      exact (takes_advance 4 _).bind (takes_pure _ _)
  have hvalue : Takes value (' ' :: '8' :: '0' :: '9' :: '9' :: '\n' :: closing) (.integer 8099)
      ('\n' :: closing) :=
    @takes_value _ _ _ [' '] (by decide) (by simp [BeginsWord, isGap]) (by simp) (by simp) hprimary
  simp only [portLine, List.append_assoc, List.cons_append, List.nil_append]
  exact takes_attribute (by decide) (by decide) (by decide) hvalue (takes_closing fuel) rfl

theorem takes_resolver (hunmarked : IsUnmarked tail) (fuel : Nat) : Takes (body true (fuel + 3))
    (resolverLine ++ '\n' :: (portLine ++ '\n' :: closing))
    [.attribute "cert_resolver" (.string "http01"), .attribute "listen_port" (.integer 8099)] ['\n'] := by
  have hspells : Spells "http01".toList "http01".toList := Spells.of_plain (by decide) (by decide)
  have hwithin : "http01".toList ++ '"' :: '\n' :: (portLine ++ '\n' :: closing) <:+: tail :=
    ⟨'\n' :: ("  ".toList ++ ("cert_resolver".toList ++ (" ".toList ++ ['=', ' ', '"']))), [], by
      simp only [tail, resolverLine, List.append_assoc, List.cons_append, List.nil_append, List.append_nil]⟩
  simp only [resolverLine, List.append_assoc, List.cons_append, List.nil_append]
  exact takes_textAttribute (by decide) (by decide) (by decide) hspells (hunmarked.within hwithin)
    (takes_port fuel) rfl

theorem read?_text {configDir : String} (hquote : '"' ∉ configDir.toList) (hback : '\\' ∉ configDir.toList)
    (hunmarked : IsUnmarked (text configDir).toList) : read? (text configDir) = some
      [.block "server" [] [.attribute "config_dir" (.string configDir),
        .attribute "cert_resolver" (.string "http01"), .attribute "listen_port" (.integer 8099)]] := by
  have htail : tail <:+: (text configDir).toList :=
    ⟨lead ++ '"' :: configDir.toList ++ ['"'], [], by simp [toList_text]⟩
  have hfolder : configDir.toList ++ '"' :: tail <:+: (text configDir).toList :=
    ⟨lead ++ ['"'], [], by simp [toList_text]⟩
  have hlength : 4 ≤ (text configDir).length := by
    have hlead : lead.length = 27 := by decide +kernel
    rw [← String.length_toList, toList_text, List.length_append, hlead]
    omega
  obtain ⟨fuel, hfuel⟩ := Nat.exists_eq_add_of_le' hlength
  have hlines := @takes_textAttribute true (fuel + 3) "  ".toList "config_dir".toList "    ".toList _ _ _
    (by decide) (by decide) (by decide) _ _ (Spells.of_plain hquote hback) (hunmarked.within hfolder)
    (takes_resolver (hunmarked.within htail) fuel) rfl
  rw [@String.ofList_toList configDir] at hlines
  have hblock := @takes_block false (fuel + 4) [] "server".toList " ".toList _ [] _ _ _ (by decide)
    (by decide) (by decide) hlines takes_body_nil
  refine read?_of_takes ?_
  rwa [toList_text, lead_append, hfuel]

theorem ofText?_text {configDir : String} (hquote : '"' ∉ configDir.toList)
    (hback : '\\' ∉ configDir.toList) (hunmarked : IsUnmarked (text configDir).toList) :
    Settings.ofText? (text configDir) = some (settings configDir) := by
  rw [Settings.ofText?, read?_text hquote hback hunmarked]
  rfl

/-! ## Reading any other text -/

section Odd

variable {cs after written said rest : List Char}

/-- What is spelled up to a quote ends before a quote that stands after no backslash. -/
theorem length_le_of_spells (h : Spells written said) (hback : cs.getLast? ≠ some '\\')
    (heq : written ++ '"' :: after = cs ++ '"' :: rest) : written.length ≤ cs.length := by
  rcases List.append_eq_append_iff.mp heq with ⟨more, rfl, -⟩ | ⟨more, hwritten, hmore⟩
  · rw [List.length_append]
    exact Nat.le_add_right _ _
  · cases more with
    | nil => exact Nat.le_of_eq (by rw [hwritten, List.append_nil])
    | cons c more =>
      obtain ⟨rfl, -⟩ := List.cons.inj hmore
      exact absurd (h.getLast?_of_quote hwritten) hback

/-- What stands between two quotes of the rest of the text is not the folder. -/
theorem getLast?_of_tail {before : List Char} (h : Spells written said)
    (heq : '"' :: tail = before ++ '"' :: (written ++ '"' :: after)) : said.getLast? ≠ some 'd' := by
  have htail : '\\' ∉ '"' :: tail ∧ ∀ piece ∈ pieces '"' ('"' :: tail), piece.getLast? ≠ some 'd' := by
    decide +kernel
  obtain ⟨rfl, hquote⟩ := h.eq_of_notMem fun hmem => htail.1 (by simp [heq, hmem])
  refine htail.2 said ?_
  rw [heq, pieces_append_cons, pieces_append_cons, pieces_of_notMem hquote]
  simp

/-- Where a quote stands in a text with two of them around a folder, and none before: what follows it is an
end of the folder with what stands after that, or it is the second quote or a later one. -/
theorem cases_of_quote {lead folder before : List Char} (hlead : '"' ∉ lead)
    (h : before ++ '"' :: cs = lead ++ ('"' :: folder ++ '"' :: rest)) :
    (∃ more, more <:+ folder ∧ cs = more ++ '"' :: rest) ∨ ∃ more, '"' :: rest = more ++ '"' :: cs := by
  rcases List.append_eq_append_iff.mp h with ⟨more, hmore, heq⟩ | ⟨more, -, heq⟩
  · cases more with
    | nil => exact Or.inl ⟨folder, List.suffix_refl _, (List.cons.inj heq).2⟩
    | cons c more =>
      obtain ⟨rfl, -⟩ := List.cons.inj heq
      exact absurd (hmore ▸ List.mem_append_right _ List.mem_cons_self) hlead
  · cases more with
    | nil => exact Or.inl ⟨folder, List.suffix_refl _, (List.cons.inj heq).2.symm⟩
    | cons c more =>
      rcases List.append_eq_append_iff.mp (List.cons.inj heq).2 with ⟨more', -, hrest⟩ | ⟨more', hfolder, hcs⟩
      · exact Or.inr ⟨more', hrest⟩
      · cases more' with
        | nil => exact Or.inr ⟨[], hcs.symm⟩
        | cons c more' =>
          exact Or.inl ⟨more', ⟨more ++ [c], by simp [hfolder]⟩, (List.cons.inj hcs).2⟩

/-- Nothing between two quotes of a starter says its folder, if that has a quote or a backslash in it. -/
theorem ne_of_spells {configDir : String} (hlast : configDir.toList.getLast? = some 'd')
    (hodd : '"' ∈ configDir.toList ∨ '\\' ∈ configDir.toList) (h : Spells written said)
    (hsuffix : '"' :: written ++ '"' :: after <:+ (text configDir).toList) :
    String.ofList said ≠ configDir := by
  have hlead : '"' ∉ lead := by decide +kernel
  obtain ⟨before, hbefore⟩ := hsuffix
  rw [toList_text] at hbefore
  rintro rfl
  rw [String.toList_ofList] at hlast hodd hbefore
  rcases cases_of_quote hlead hbefore with ⟨folder, ⟨start, hfolder⟩, heq⟩ | ⟨more, heq⟩
  · have hback : folder.getLast? ≠ some '\\' := by
      intro hback
      rw [← hfolder, List.getLast?_append, hback, Option.some_or] at hlast
      exact absurd (Option.some.inj hlast) (by decide)
    -- What is written is no longer than the folder, so it is what it says.
    have hwritten : written.length ≤ said.length := by
      rw [← hfolder, List.length_append]
      exact Nat.le_add_left_of_le (length_le_of_spells h hback heq)
    have hnone := h.notMem_of_length_le hwritten
    obtain ⟨rfl, hquote⟩ := h.eq_of_notMem hnone
    exact hodd.elim hquote hnone
  · exact getLast?_of_tail h heq hlast

end Odd

/-- A starter that gives its folder back has no quote and no backslash in it. -/
theorem plain_of_configDir {configDir : String} {s : Settings}
    (hlast : configDir.toList.getLast? = some 'd') (hunmarked : IsUnmarked (text configDir).toList)
    (h : Settings.ofText? (text configDir) = some s) (hs : s.configDir = configDir) :
    '"' ∉ configDir.toList ∧ '\\' ∉ configDir.toList := by
  rw [← not_or]
  intro hodd
  have hquoted := @yields_quoted _ (· ≠ configDir) hunmarked
    fun _ _ _ hsuffix hspells => ne_of_spells hlast hodd hspells hsuffix
  have hheredoc := @yields_heredoc _ (· ≠ configDir) hunmarked fun cs hends heq => by
    rw [← heq, String.toList_ofList] at hlast
    rcases hends with rfl | hends
    · cases hlast
    · rw [hlast] at hends
      exact absurd (Option.some.inj hends) (by decide)
  obtain ⟨items, hread, hbody⟩ := Option.bind_eq_some_iff.mp h
  rcases Settings.configDir_ofBody? (all_of_read? hquoted hheredoc hread) hbody with hne | ⟨t, hcomputed⟩
  · exact hne hs
  · have hbrace : "\x7d".toList = ['\x7d'] := by decide
    rw [← hs, hcomputed, String.toList_append, hbrace, List.getLast?_concat] at hlast
    exact absurd (Option.some.inj hlast) (by decide)

/-! ## The folder beside the settings -/

section Folder

variable {path : String}

theorem notMem_folderName : '/' ∉ folderName.toList := by decide

theorem getLast?_join (path : String) : (Path.join path folderName).toList.getLast? = some 'd' := by
  obtain ⟨before, hbefore⟩ := Path.suffix_join path notMem_folderName
  have hname : folderName.toList.getLast? = some 'd' := by decide
  rw [← hbefore, List.getLast?_append, hname, Option.some_or]

theorem isUnmarked_join (h : IsUnmarked path.toList) : IsUnmarked (Path.join path folderName).toList := by
  have hname : IsUnmarked folderName.toList := isUnmarked_iff.mpr (by decide)
  rcases Path.join_cases path notMem_folderName with ⟨-, hjoin⟩ | ⟨before, hjoin, hpath⟩
  · rwa [hjoin]
  · rw [hjoin, isUnmarked_append_cons (by decide)]
    refine ⟨h.within ?_, hname⟩
    rcases hpath with ⟨hpath, -, -⟩ | hpath
    · exact hpath ▸ List.infix_refl _
    · rw [hpath]
      exact (List.prefix_append before ['/']).isInfix

theorem isUnmarked_text {configDir : String} (h : IsUnmarked configDir.toList) :
    IsUnmarked (text configDir).toList := by
  have hlead : IsUnmarked lead := isUnmarked_iff.mpr (by decide +kernel)
  have htail : IsUnmarked tail := isUnmarked_iff.mpr (by decide +kernel)
  rw [toList_text, List.cons_append, isUnmarked_append_cons (by decide), isUnmarked_append_cons (by decide)]
  exact ⟨hlead, h, htail⟩

end Folder

/-! ## What is written -/

/-- A starter that was written is read back. -/
theorem readText_create {path : String} {files : FileSystem} (h : (create path files).1 = .ok ()) :
    (create path files).2.readText (Path.join path Settings.fileName) =
      .ok (text (Path.join path folderName)) := by
  rw [create] at h ⊢
  by_cases hthere : files.isThere (Path.join path Settings.fileName) = true
  · rw [if_pos hthere] at h
    cases h
  rw [if_neg hthere] at h ⊢
  revert h
  rcases files.createFolders (Path.join path folderName) with ⟨_ | _, made⟩
  · exact fun h => nomatch h
  intro h
  dsimp only at h ⊢
  cases hwrite : made.write (Path.join path Settings.fileName) (text (Path.join path folderName)).toUTF8 with
  | error cause =>
    rw [hwrite] at h
    cases h
  | ok written => exact FileSystem.readText_write hwrite

end RouteFleet.Starter

namespace RouteFleet.Session

open Hcl

theorem run_bind {α β : Type} {p : SessionM α} {f : α → SessionM β} {s s' : Session} {a : α}
    (h : p.run.run s = (.ok a, s')) : (p >>= f).run.run s = (f a).run.run s' := by
  rw [ExceptT.run_bind, StateT.run_bind, h]
  rfl

theorem run_init (path : String) (s : Session) :
    ((init path).run.run s).1 = (Starter.create path s.files).1.mapError .starter ∧
      ((init path).run.run s).2.files = (Starter.create path s.files).2 := by
  have hget : (get : SessionM Session).run.run s = (.ok s, s) := rfl
  rw [init, run_bind hget]
  rcases Starter.create path s.files with ⟨_ | _, files⟩
  · exact ⟨rfl, rfl⟩
  · exact ⟨rfl, rfl⟩

/-- What is loaded of a starter that was written is what its text is read as. -/
theorem load_init_iff {path : String} {s : Session} (h : ((init path).run.run s).1 = .ok ())
    {settings : Settings} :
    Settings.load ((init path).run.run s).2.files (Path.join path Settings.fileName) = .ok settings ↔
      Settings.ofText? (Starter.text (Path.join path Starter.folderName)) = some settings := by
  obtain ⟨hresult, hfiles⟩ := run_init path s
  have hcreate : (Starter.create path s.files).1 = .ok () := by
    rw [hresult] at h
    cases hcase : (Starter.create path s.files).1 with
    | error cause =>
      rw [hcase] at h
      cases h
    | ok _ => rfl
  simp only [Settings.load, hfiles, Starter.readText_create hcreate]
  cases Settings.ofText? (Starter.text (Path.join path Starter.folderName)) with
  | none => simp
  | some read => simp

/-- Where nothing in a path begins a part to be computed, the settings that are written to start from load
back, with the folder beside them, exactly if the path has no quote and no backslash in it. Otherwise
nothing that loads has that folder. -/
theorem load_init {path : String} {s : Session} (hinit : ((init path).run.run s).1 = .ok ())
    (hmarks : Text.contains "$\x7b" path = false ∧ Text.contains "%\x7b" path = false) :
    ('"' ∉ path.toList ∧ '\\' ∉ path.toList →
      Settings.load ((init path).run.run s).2.files (Path.join path Settings.fileName) = .ok
        { configDir := Path.join path Starter.folderName, certResolver := "http01", listenPort := 8099,
          authEndpoint := none }) ∧
    ∀ settings, Settings.load ((init path).run.run s).2.files (Path.join path Settings.fileName) =
        .ok settings → settings.configDir = Path.join path Starter.folderName →
      '"' ∉ path.toList ∧ '\\' ∉ path.toList := by
  have hpath : IsUnmarked path.toList := isUnmarked_iff.mpr hmarks
  have hunmarked := Starter.isUnmarked_text (Starter.isUnmarked_join hpath)
  have hquote : '"' ∈ (Path.join path Starter.folderName).toList ↔ '"' ∈ path.toList :=
    Path.mem_toList_join path Starter.notMem_folderName (by decide) (by decide)
  have hback : '\\' ∈ (Path.join path Starter.folderName).toList ↔ '\\' ∈ path.toList :=
    Path.mem_toList_join path Starter.notMem_folderName (by decide) (by decide)
  simp only [load_init_iff hinit, ← hquote, ← hback]
  constructor
  · rintro ⟨hquote, hback⟩
    exact Starter.ofText?_text hquote hback hunmarked
  · intro settings hread hfolder
    exact Starter.plain_of_configDir (Starter.getLast?_join path) hunmarked hread hfolder

/-- A session in which nothing lies in the folder that paths start from. -/
def bareSession : Session where
  files := { entries := [], start := [] }
  tags := []
  hasher := Hasher.marking

theorem load_init_dollarAndQuote :
    Settings.load ((init "$ \x7ba\x7d\n").run.run bareSession).2.files "$ \x7ba\x7d\n/waypost.hcl" = .ok
        { configDir := "$ \x7ba\x7d\n/dynamic.d", certResolver := "http01", listenPort := 8099,
          authEndpoint := none } ∧
      ∀ settings, Settings.load ((init "a\"b").run.run bareSession).2.files "a\"b/waypost.hcl" =
        .ok settings → settings.configDir ≠ "a\"b/dynamic.d" :=
  ⟨(load_init rfl (by decide)).1 (by decide),
    fun settings hload hfolder => absurd ((load_init rfl (by decide)).2 settings hload hfolder).1 (by decide)⟩

end RouteFleet.Session
