import Mathlib.Data.List.TakeDrop
import Mathlib.Data.List.TakeWhile
import TpmFuzzer.Harness.SeedFiles
import TpmFuzzer.Lib.Text
import TpmFuzzer.Python.Seeds

/-!
# What the tester prints

`main.py` shows what has changed in a byte seed by what `test-seed.sh` prints of the old file and
the new one, of which it takes the text up to the first response.

    requestSection (testSeedOutput ..) = .ok (rstrip (sendCommandOutput c))
                                                                         (requestSection_tester)

where `c` is the first command of the file.  Such texts are equal exactly if the commands are, so
that the change is visible exactly if it is one of the first command (`requestSections_eq_iff`).
-/

namespace Harness

open Bytes Tpm Parser Text
open Python (Str isSpace rstrip afterHeading untilResponse requestAt searchRequest requestSection)

/-! ## tester.cc -/

/-- The bits of a byte as `SendCommand` prints them. -/
def bitsByte (b : UInt8) : Str :=
  ([7, 6, 5, 4, 3, 2, 1, 0].flatMap fun bit => decimal ((b.toNat >>> bit) &&& 1)) ++ [' ']

def hexDump (bs : Bytes) : Str := dump (fun b => hexByte b ++ [' ']) 16 bs

def binaryDump (bs : Bytes) : Str := dump bitsByte 8 bs

def requestHeading : Str :=
  println "==============================".toList ++
  println "            REQUEST           ".toList ++
    println "==============================".toList

def responseHeading : Str :=
  println "==============================".toList ++
  println "            RESPONSE          ".toList ++
    println "==============================".toList

/-- What `SendCommand` prints between the heading and the call. -/
def commandLines (command : Bytes) : Str :=
  (if 6 ≤ command.length then
    println ("TPM Command Tag (hex): 0x".toList ++ hex 4 (read16 command 0).toNat) ++
      println ("TPM Command Length (hex): 0x".toList ++ hex 8 (read32 command 2).toNat)
  else println ("TPM command too short to contain tag and length (".toList ++
    decimal command.length ++
    " bytes)".toList)) ++
  println ("TPM Command Buffer Size (bytes): ".toList ++ decimal command.length) ++
  (if 10 ≤ command.length then
    println ("TPM Command Code (hex): 0x".toList ++ hex 8 (read32 command 6).toNat)
  else println ("TPM command too short to contain command code (".toList ++
    decimal command.length ++
    " bytes)".toList)) ++
  (if command ≠ [] then
    println "TPM Command (hex):".toList ++ hexDump command ++
      println "TPM Command (binary):".toList ++ binaryDump command
  else []) ++
  println [] ++ println []

/-- `SendCommand` on the standard output. -/
def sendCommandOutput (command : Bytes) : Str := requestHeading ++ commandLines command

/-- `PrintResponse`.  A response of six to nine bytes has no response code: what is printed for it
is in `stale`. -/
def printResponse (stale : Nat → UInt8) (verbose : Bool) (response : Bytes) : Str :=
  responseHeading ++
  if response = [] then println "Empty TPM response.".toList
  else
    let rcByte (i : Nat) : UInt32 := (response.getD i (stale i)).toUInt32
    let rc := (rcByte 6 <<< 24) ||| (rcByte 7 <<< 16) ||| (rcByte 8 <<< 8) ||| rcByte 9
    (if 6 ≤ response.length then
      println ("TPM Response Tag (hex): 0x".toList ++ hex 4 (read16 response 0).toNat) ++
        println ("TPM Response Size (hex): 0x".toList ++ hex 8 (read32 response 2).toNat) ++
        println ("TPM Response Buffer Size (bytes): ".toList ++ decimal response.length) ++
        println ("TPM Response Code: 0x".toList ++ hex 8 rc.toNat)
    else println ("TPM response too short to contain tag and size (".toList ++
      decimal response.length ++
      " bytes)".toList)) ++
    (if verbose then
      println "TPM Response (hex):".toList ++ hexDump response ++
        println "TPM Response (binary):".toList ++ binaryDump response
    else []) ++
    println [] ++ println []

section

variable {P : Type} (pl : Platform P) (stale : Nat → UInt8) (verbose : Bool)

/-- `PrintResponse(SendCommand(command))`. -/
def sendAndPrint (s : Bench P × Str) (command : Bytes) : Bench P × Str :=
  let (tpm, response) := tpmSendCommand pl kDefaultLocality command kMaxBuffers s.1.tpm
  (⟨tpm, s.1.exchanges ++ [(command, response)]⟩,
    s.2 ++ sendCommandOutput command ++ printResponse stale verbose response)

/-- The standard output of `main`. -/
def testerOutput (data : Bytes) (b : Bench P) : Str :=
  if data.length = 0 then []
  else match parseCommands data [] with
    | (false, _) => []
    | (true, commands) =>
      let tpm := tpmManufactureIfNeeded pl b.tpm
      let tpm := tpmStartup pl tpm
      let tpm := sendTPM2StartupCommand pl tpm
      (commands.foldl (sendAndPrint pl stale verbose) (⟨tpm, b.exchanges⟩, [])).2

/-- `echo -e` prints such a path as it is, on one line, and `subprocess.run` with `text=True` finds
that line as it was printed. -/
structure PlainPath (path : Str) : Prop where
  lineBreak : lineBreak ∉ path
  carriageReturn : '\r' ∉ path
  backslash : '\\' ∉ path

instance (path : Str) : Decidable (PlainPath path) :=
  decidable_of_iff (Text.lineBreak ∉ path ∧ '\r' ∉ path ∧ '\\' ∉ path)
    ⟨fun ⟨hline, hreturn, hslash⟩ => ⟨hline, hreturn, hslash⟩,
      fun h => ⟨h.lineBreak, h.carriageReturn, h.backslash⟩⟩

/-- `test-seed.sh -local` on a corpus file with a plain path. -/
def testSeedOutput (corpus : Str) (data : Bytes) (b : Bench P) : Str :=
  println ("\x1b[0;36m[*]\x1b[0m Using corpus file: \x1b[0;34m".toList ++
    corpus ++ "\x1b[0m".toList) ++
  println "\x1b[0;36m[*]\x1b[0m Running tester with provided corpus...".toList ++
  testerOutput pl stale verbose data b ++
  println (if (testerMain pl data b).2 = 0 then
    "\x1b[0;32m[+] Tester run completed successfully.\x1b[0m".toList
    else "\x1b[0;31m[-] Tester run encountered an error.\x1b[0m".toList)

end

/-! ## The expression of `request_section` -/

/-- A heading begins with a line of `=`. -/
theorem afterHeading_eq_none {word s : Str} (h : ∀ line rest, s = line ++ lineBreak :: rest →
    (∀ c ∈ line, c = '=') → line = []) : afterHeading word s = none := by
  have hsplit := List.takeWhile_append_dropWhile (p := fun c => decide (c = '=')) (l := s)
  unfold afterHeading
  rw [List.span_eq_takeWhile_dropWhile]
  cases hline : s.takeWhile (fun c => decide (c = '=')) with
  | nil => rfl
  | cons a line =>
    cases hrest : s.dropWhile (fun c => decide (c = '=')) with
    | nil => rfl
    | cons c rest =>
      rw [hline, hrest] at hsplit
      have hc : c ≠ lineBreak := by
        rintro rfl
        have hnil := h (a :: line) rest hsplit.symm fun b hb => by
          rw [← hline] at hb
          simpa using List.mem_takeWhile_imp hb
        cases hnil
      simp only [List.isPrefixOf?, beq_iff_eq]
      rw [if_neg fun h : '\n' = c => hc h.symm]
      rfl

theorem requestAt_eq_none {s : Str} (h : ∀ line rest, s = line ++ lineBreak :: rest →
    (∀ c ∈ line, c = '=') → line = []) : requestAt s = none := by
  unfold requestAt
  rw [afterHeading_eq_none h]
  rfl

theorem afterHeading_of_ne {word s : Str} {c : Char} (hc : c ≠ '=') :
    afterHeading word (c :: s) = none := by
  refine afterHeading_eq_none fun line rest hs hline => ?_
  cases line with
  | nil => rfl
  | cons a line =>
    have ha := (List.cons.inj hs).1
    exact absurd (ha.trans (hline a List.mem_cons_self)) hc

/-- A line that does not end with `=` is passed over. -/
theorem searchRequest_println {l s : Str} {c : Char} (hl : lineBreak ∉ l) (hbreak : c ≠ lineBreak)
    (hc : c ≠ '=') :
    searchRequest (println (l ++ [c]) ++ s) = searchRequest s := by
  induction l with
  | nil =>
    show (requestAt (c :: lineBreak :: s) <|> requestAt (lineBreak :: s) <|> searchRequest s) =
      searchRequest s
    have hfirst : ∀ d t, d ≠ '=' → requestAt (d :: t) = none := by
      intro d t hd
      unfold requestAt
      rw [afterHeading_of_ne hd]
      rfl
    rw [hfirst c _ hc, hfirst lineBreak s (by decide)]
    rfl
  | cons a l ih =>
    have hnone : requestAt (println (a :: l ++ [c]) ++ s) = none := by
      refine requestAt_eq_none fun line rest hs hline => ?_
      -- the first line break is behind `c`
      unfold println at hs
      rw [List.append_assoc] at hs
      have hlast : lineBreak ∉ a :: l ++ [c] := by
        simpa [not_or, hbreak.symm] using hl
      have hline' : lineBreak ∉ line := fun h => absurd (hline _ h) (by decide)
      obtain ⟨rfl, -⟩ := append_cons_inj hlast hline' hs
      exact absurd (hline c (by simp)) hc
    show (requestAt (println (a :: l ++ [c]) ++ s) <|> searchRequest (println (l ++ [c]) ++ s)) =
      searchRequest s
    rw [hnone, ih (List.not_mem_of_not_mem_cons hl)]
    rfl

theorem afterHeading_request (rest : Str) :
    afterHeading "REQUEST".toList (requestHeading ++ rest) = some (lineBreak :: rest) := by
  rfl

theorem afterHeading_response (rest : Str) :
    afterHeading "RESPONSE".toList (responseHeading ++ rest) = some (lineBreak :: rest) := by
  rfl

/-- What there is before the first response. -/
theorem untilResponse_append {body : Str} (hbody : '=' ∉ body) (rest : Str) :
    untilResponse (body ++ (responseHeading ++ rest)) = some body := by
  induction body with
  | nil =>
    rw [List.nil_append]
    unfold untilResponse
    rw [afterHeading_response]
    rfl
  | cons c body ih =>
    have hc : c ≠ '=' := fun h => hbody (h ▸ List.mem_cons_self)
    rw [List.cons_append]
    unfold untilResponse
    rw [afterHeading_of_ne hc]
    show Option.map (c :: ·) (untilResponse (body ++ (responseHeading ++ rest))) = _
    rw [ih (List.not_mem_of_not_mem_cons hbody)]
    rfl

theorem requestAt_heading {body : Str} (hbody : '=' ∉ body) (rest : Str) :
    requestAt (requestHeading ++ (body ++ (responseHeading ++ rest))) =
      some (requestHeading ++ body) := by
  unfold requestAt
  rw [afterHeading_request]
  show (do
    let text ← untilResponse (body ++ (responseHeading ++ rest))
    return (requestHeading ++ (body ++ (responseHeading ++ rest))).take
      ((requestHeading ++ (body ++ (responseHeading ++ rest))).length -
        (body ++ (responseHeading ++ rest)).length) ++ text) = _
  rw [untilResponse_append hbody, List.length_append, Nat.add_sub_cancel, List.take_left]
  rfl

/-- The first request of a text, behind lines that do not end with `=`. -/
theorem searchRequest_heading {body : Str} (hbody : '=' ∉ body) (rest : Str) :
    searchRequest (requestHeading ++ (body ++ (responseHeading ++ rest))) =
      some (requestHeading ++ body) := by
  have hsearch : ∀ c s, searchRequest (c :: s) = (requestAt (c :: s) <|> searchRequest s) :=
    fun _ _ => rfl
  have hcons : requestHeading = '=' :: requestHeading.tail := rfl
  rw [hcons, List.cons_append, hsearch, ← List.cons_append, ← hcons, requestAt_heading hbody]
  rfl

/-! ## The text of a command -/

theorem rstrip_append {s t : Str} (h : ∃ c ∈ t, isSpace c = false) :
    rstrip (s ++ t) = s ++ rstrip t := by
  unfold rstrip
  rw [List.reverse_append, List.dropWhile_append, if_neg, List.reverse_append, List.reverse_reverse]
  intro hempty
  obtain ⟨c, hc, hspace⟩ := h
  have hall := List.dropWhile_eq_nil_iff.mp (List.isEmpty_iff.mp hempty) c (List.mem_reverse.mpr hc)
  rw [hspace] at hall
  cases hall

theorem lineBreak_notMem_append_hex {label : Str} (hlabel : lineBreak ∉ label) (width n : Nat) :
    lineBreak ∉ label ++ hex width n := by
  intro h
  rcases List.mem_append.mp h with h | h
  · exact hlabel h
  · obtain ⟨d, hd⟩ := mem_hex h
    exact Nat.digitChar_ne _ (by decide) hd.symm

theorem lineBreak_notMem_append_decimal {label : Str} (hlabel : lineBreak ∉ label) (n : Nat) :
    lineBreak ∉ label ++ decimal n := by
  intro h
  rcases List.mem_append.mp h with h | h
  · exact hlabel h
  · obtain ⟨d, hd⟩ := mem_decimal h
    exact Nat.digitChar_ne _ (by decide) hd.symm

/-- The lines for a whole header. -/
theorem commandLines_of_le {command : Bytes} (h : 10 ≤ command.length) : commandLines command =
    println ("TPM Command Tag (hex): 0x".toList ++ hex 4 (read16 command 0).toNat) ++
      (println ("TPM Command Length (hex): 0x".toList ++ hex 8 (read32 command 2).toNat) ++
      (println ("TPM Command Buffer Size (bytes): ".toList ++ decimal command.length) ++
      (println ("TPM Command Code (hex): 0x".toList ++ hex 8 (read32 command 6).toNat) ++
      (println "TPM Command (hex):".toList ++ (hexDump command ++
      (println "TPM Command (binary):".toList ++
        (binaryDump command ++ (println [] ++ println [])))))))) := by
  have hne : command ≠ [] := List.ne_nil_of_length_pos (by omega)
  unfold commandLines
  rw [if_pos (by omega), if_pos h, if_pos hne]
  simp only [List.append_assoc]

theorem mem_hexDump {command : Bytes} {c : Char} (h : c ∈ hexDump command) :
    c = lineBreak ∨ c = ' ' ∨ ∃ d, c = Nat.digitChar d := by
  rcases mem_dump h with h | ⟨b, -, h⟩
  · exact Or.inl h
  · rcases List.mem_append.mp h with h | h
    · exact Or.inr (Or.inr (mem_hex h))
    · exact Or.inr (Or.inl (List.mem_singleton.mp h))

theorem mem_binaryDump {command : Bytes} {c : Char} (h : c ∈ binaryDump command) :
    c = lineBreak ∨ c = ' ' ∨ ∃ d, c = Nat.digitChar d := by
  rcases mem_dump h with h | ⟨b, -, h⟩
  · exact Or.inl h
  · rcases List.mem_append.mp h with h | h
    · obtain ⟨bit, -, h⟩ := List.mem_flatMap.mp h
      exact Or.inr (Or.inr (mem_decimal h))
    · exact Or.inr (Or.inl (List.mem_singleton.mp h))

theorem commandLines_no_heading {command : Bytes} (h : 10 ≤ command.length) :
    '=' ∉ commandLines command := by
  have hlabel : ∀ {label : Str}, '=' ∉ label → '=' ∉ println label := by
    intro label hlabel hmem
    rcases List.mem_append.mp hmem with h | h
    · exact hlabel h
    · exact absurd (List.mem_singleton.mp h) (by decide)
  have hdigits : ∀ {label digits : Str}, '=' ∉ label → (∀ c ∈ digits, ∃ d, c = Nat.digitChar d) →
      '=' ∉ println (label ++ digits) := by
    intro label digits hlabel' hdigits
    refine hlabel (List.not_mem_append hlabel' fun hmem => ?_)
    obtain ⟨d, hd⟩ := hdigits _ hmem
    exact Nat.digitChar_ne _ (by decide) hd.symm
  have hdump : ∀ {t : Str}, (∀ c ∈ t, c = lineBreak ∨ c = ' ' ∨ ∃ d, c = Nat.digitChar d) →
      '=' ∉ t := by
    intro t ht hmem
    rcases ht _ hmem with hc | hc | ⟨d, hd⟩
    · exact absurd hc (by decide)
    · exact absurd hc (by decide)
    · exact Nat.digitChar_ne _ (by decide) hd.symm
  rw [commandLines_of_le h]
  refine List.not_mem_append (hdigits (by decide) fun c hc => mem_hex hc) ?_
  refine List.not_mem_append (hdigits (by decide) fun c hc => mem_hex hc) ?_
  refine List.not_mem_append (hdigits (by decide) fun c hc => mem_decimal hc) ?_
  refine List.not_mem_append (hdigits (by decide) fun c hc => mem_hex hc) ?_
  refine List.not_mem_append (hlabel (by decide)) ?_
  refine List.not_mem_append (hdump fun c hc => mem_hexDump hc) ?_
  refine List.not_mem_append (hlabel (by decide)) ?_
  refine List.not_mem_append (hdump fun c hc => mem_binaryDump hc) ?_
  exact List.not_mem_append (hlabel (by decide)) (hlabel (by decide))

/-- Stripping the end of the text leaves all up to the hex dump. -/
theorem rstrip_sendCommandOutput {command : Bytes} (h : 10 ≤ command.length) :
    ∃ binary, rstrip (sendCommandOutput command) = requestHeading ++
      (println ("TPM Command Tag (hex): 0x".toList ++ hex 4 (read16 command 0).toNat) ++
      (println ("TPM Command Length (hex): 0x".toList ++ hex 8 (read32 command 2).toNat) ++
      (println ("TPM Command Buffer Size (bytes): ".toList ++ decimal command.length) ++
      (println ("TPM Command Code (hex): 0x".toList ++ hex 8 (read32 command 6).toNat) ++
      (println "TPM Command (hex):".toList ++ (hexDump command ++ binary)))))) := by
  refine ⟨rstrip (println "TPM Command (binary):".toList ++
    (binaryDump command ++ (println [] ++ println []))), ?_⟩
  have hstrip : ∀ s t : Str, rstrip (s ++ (println "TPM Command (binary):".toList ++ t)) =
      s ++ rstrip (println "TPM Command (binary):".toList ++ t) := fun s t =>
    rstrip_append ⟨'T', List.mem_append_left t (by decide), by decide⟩
  simp only [← List.append_assoc _ _ (rstrip _)]
  rw [← hstrip, sendCommandOutput, commandLines_of_le h]
  simp only [List.append_assoc]

/-- A command can be told from its text. -/
theorem sendCommandOutput_inj {c c' : Bytes} (hc : 10 ≤ c.length) (hc' : 10 ≤ c'.length)
    (h : rstrip (sendCommandOutput c) = rstrip (sendCommandOutput c')) : c = c' := by
  obtain ⟨binary, htext⟩ := rstrip_sendCommandOutput hc
  obtain ⟨binary', htext'⟩ := rstrip_sendCommandOutput hc'
  rw [htext, htext'] at h
  -- line by line up to the dump, whose length is then known
  have htag := List.append_cancel_left h
  obtain ⟨-, hlength⟩ := println_inj (lineBreak_notMem_append_hex (by decide) _ _)
    (lineBreak_notMem_append_hex (by decide) _ _) htag
  obtain ⟨-, hsize⟩ := println_inj (lineBreak_notMem_append_hex (by decide) _ _)
    (lineBreak_notMem_append_hex (by decide) _ _) hlength
  obtain ⟨hdigits, hcode⟩ := println_inj (lineBreak_notMem_append_decimal (by decide) _)
    (lineBreak_notMem_append_decimal (by decide) _) hsize
  obtain ⟨-, hdump⟩ := println_inj (lineBreak_notMem_append_hex (by decide) _ _)
    (lineBreak_notMem_append_hex (by decide) _ _) hcode
  refine dump_inj (k := 3) (fun b => ?_) (fun b b' hb => ?_)
    (decimal_inj (List.append_cancel_left hdigits))
    (List.append_cancel_left hdump)
  · rw [List.length_append, length_hexByte]
    rfl
  · exact hexByte_inj (List.append_cancel_right hb)

/-! ## The tester's output -/

section

variable {P : Type} (pl : Platform P) (stale : Nat → UInt8) (verbose : Bool)

theorem sendAndPrint_prints (commands : List Bytes) (s : Bench P × Str) :
    ∃ text, (commands.foldl (sendAndPrint pl stale verbose) s).2 = s.2 ++ text := by
  induction commands generalizing s with
  | nil => exact ⟨[], (List.append_nil _).symm⟩
  | cons c commands ih =>
    obtain ⟨text, htext⟩ := ih (sendAndPrint pl stale verbose s c)
    rw [List.foldl_cons, htext]
    unfold sendAndPrint
    exact ⟨_, by rw [List.append_assoc, List.append_assoc]⟩

theorem sendAndPrint_eq (s : Bench P × Str) (command : Bytes) : ∃ rest,
    (sendAndPrint pl stale verbose s command).2 = s.2 ++
    (sendCommandOutput command ++ (responseHeading ++ rest)) := by
  have hprint : ∀ response, ∃ rest, printResponse stale verbose response =
      responseHeading ++ rest :=
    fun response => ⟨_, rfl⟩
  obtain ⟨rest, hrest⟩ := hprint (tpmSendCommand pl kDefaultLocality command kMaxBuffers s.1.tpm).2
  refine ⟨rest, ?_⟩
  rw [← hrest, ← List.append_assoc]
  rfl

theorem testerOutput_cons {data c : Bytes} {commands : List Bytes}
    (h : parseCommands data [] = (true, c :: commands)) (b : Bench P) :
    ∃ rest, testerOutput pl stale verbose data b =
      requestHeading ++ (commandLines c ++ (responseHeading ++ rest)) := by
  have hne : data.length ≠ 0 := by
    intro hnil
    rw [List.length_eq_zero_iff.mp hnil] at h
    rw [show ([] : Bytes) = ([] : List Bytes).flatten from rfl,
      parseCommands_flatten (by simp)] at h
    cases h
  unfold testerOutput
  rw [if_neg hne, h]
  obtain ⟨rest, hrest⟩ := sendAndPrint_eq pl stale verbose
    (⟨sendTPM2StartupCommand pl (tpmStartup pl (tpmManufactureIfNeeded pl b.tpm)),
      b.exchanges⟩, []) c
  obtain ⟨text, htext⟩ := sendAndPrint_prints pl stale verbose commands
    (sendAndPrint pl stale verbose
      (⟨sendTPM2StartupCommand pl (tpmStartup pl (tpmManufactureIfNeeded pl b.tpm)),
        b.exchanges⟩, []) c)
  refine ⟨rest ++ text, ?_⟩
  show (List.foldl _ (sendAndPrint pl stale verbose _ c) commands).2 = _
  rw [htext, hrest, sendCommandOutput]
  simp only [List.nil_append, List.append_assoc]

/-- What `main.py` takes of the output for a file is the text of its first command. -/
theorem requestSection_tester {data c : Bytes} {commands : List Bytes}
    (h : parseCommands data [] = (true, c :: commands)) {corpus : Str} (hcorpus : PlainPath corpus)
    (b : Bench P) :
    requestSection (testSeedOutput pl stale verbose corpus data b) =
      .ok (rstrip (sendCommandOutput c)) := by
  obtain ⟨rest, hsplit, -⟩ := parseCommands_splits data []
  rw [h] at hsplit
  have hc := (hsplit.frames c List.mem_cons_self).ten_le
  obtain ⟨text, htext⟩ := testerOutput_cons pl stale verbose h b
  have hcyan : lineBreak ∉
      "\x1b[0;36m[*]\x1b[0m Using corpus file: \x1b[0;34m".toList ++ corpus ++ "\x1b[0".toList := by
    refine List.not_mem_append (List.not_mem_append (by decide) hcorpus.lineBreak) (by decide)
  have hfirst : "\x1b[0;36m[*]\x1b[0m Using corpus file: \x1b[0;34m".toList ++
    corpus ++ "\x1b[0m".toList =
      ("\x1b[0;36m[*]\x1b[0m Using corpus file: \x1b[0;34m".toList ++ corpus ++
        "\x1b[0".toList) ++ ['m'] := by
    rw [List.append_assoc _ "\x1b[0".toList]
    rfl
  have hsecond : "\x1b[0;36m[*]\x1b[0m Running tester with provided corpus...".toList =
      "\x1b[0;36m[*]\x1b[0m Running tester with provided corpus..".toList ++ ['.'] := rfl
  unfold requestSection testSeedOutput
  rw [hfirst, hsecond, htext]
  simp only [List.append_assoc (println _)]
  rw [searchRequest_println hcyan (by decide) (by decide),
    searchRequest_println (by decide) (by decide) (by decide)]
  simp only [List.append_assoc]
  rw [searchRequest_heading (commandLines_no_heading hc)]
  rfl

/-- The two texts for the files of a variant are equal exactly if the first commands are: nothing
else of the files, and nothing of the platform, is in them. -/
theorem requestSections_eq_iff {data data' c c' : Bytes} {commands commands' : List Bytes}
    (h : parseCommands data [] = (true, c :: commands))
    (h' : parseCommands data' [] = (true, c' :: commands')) {corpus corpus' : Str}
    (hcorpus : PlainPath corpus) (hcorpus' : PlainPath corpus') (b b' : Bench P) :
    ∃ actual expected, requestSection (testSeedOutput pl stale verbose corpus data b) = .ok actual ∧
      requestSection (testSeedOutput pl stale verbose corpus' data' b') = .ok expected ∧
      (actual = expected ↔ c = c') := by
  refine ⟨_, _, requestSection_tester pl stale verbose h hcorpus b,
    requestSection_tester pl stale verbose h' hcorpus' b', fun htext => ?_, fun hc => by rw [hc]⟩
  obtain ⟨_, hsplit, -⟩ := parseCommands_splits data []
  obtain ⟨_, hsplit', -⟩ := parseCommands_splits data' []
  rw [h] at hsplit
  rw [h'] at hsplit'
  exact sendCommandOutput_inj (hsplit.frames c List.mem_cons_self).ten_le
    (hsplit'.frames c' List.mem_cons_self).ten_le htext

end

/-- A ReadClock behind a GetTestResult does not show, instead of it it does. -/
theorem readClock_shown :
    let getTestResult : Bytes := [0x80, 0x01, 0, 0, 0, 10, 0, 0, 0x01, 0x7C]
    let readClock : Bytes := [0x80, 0x01, 0, 0, 0, 10, 0, 0, 0x01, 0x81]
    let shown := fun data => requestSection
      (testSeedOutput silent (fun _ => 0) false "seeds/bytearray/a".toList data ⟨(), []⟩)
    shown [getTestResult].flatten = shown [getTestResult, readClock].flatten ∧
      shown [getTestResult].flatten ≠ shown [readClock].flatten := by
  intro getTestResult readClock shown
  have hget : IsFrame getTestResult := ⟨by decide, by decide, by decide⟩
  have hread : IsFrame readClock := ⟨by decide, by decide, by decide⟩
  have hone : parseCommands [getTestResult].flatten [] = (true, [getTestResult]) :=
    parseCommands_flatten (by simpa using hget) []
  have hother : parseCommands [readClock].flatten [] = (true, [readClock]) :=
    parseCommands_flatten (by simpa using hread) []
  have hboth : parseCommands [getTestResult, readClock].flatten [] =
      (true, [getTestResult, readClock]) :=
    parseCommands_flatten (by simpa using ⟨hget, hread⟩) []
  have hplain : PlainPath "seeds/bytearray/a".toList := by decide
  obtain ⟨a, e, ha, he, hsame⟩ :=
    requestSections_eq_iff silent (fun _ => 0) false hone hboth hplain hplain ⟨(), []⟩ ⟨(), []⟩
  obtain ⟨a', e', ha', he', hdiffer⟩ :=
    requestSections_eq_iff silent (fun _ => 0) false hone hother hplain hplain ⟨(), []⟩ ⟨(), []⟩
  constructor
  · show requestSection _ = requestSection _
    rw [ha, he, hsame.mpr rfl]
  · show requestSection _ ≠ requestSection _
    rw [ha', he']
    intro heq
    exact absurd (hdiffer.mp (Except.ok.inj heq)) (by decide)

end Harness
