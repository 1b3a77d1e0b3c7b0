import Partitura.Proofs.Codec.Declarations
import Partitura.Proofs.Codec.Unicode
import Partitura.Proofs.Files.Recode
import Partitura.Proofs.Text.Lines

/-!
# To UTF-16 and back

A document in UTF-8 that was put into UTF-16 is read again without being told its encoding: a mark
in front or the zero bytes of the opening `<?` give it away (`exists_detected`). The name in its
declaration is put back too, so that a change to UTF-16 is undone by a change to UTF-8
(`run_run_utf8`).
-/

namespace Partitura

namespace Codec

/-! ## Reading documents -/

/-- A text without foreign line ends is read as it is, without the mark. -/
theorem readDocument_of_decode {e : Encoding} {bs : List UInt8} {cs : List Char}
    (h : e.decode bs = .ok cs) (hr : '\r' ∉ cs) : readDocument e bs = .ok (dropMark cs) := by
  rw [readDocument, h]
  exact congrArg (fun x => Except.ok (dropMark x)) (Text.readLineEnds_of_not_mem hr)

/-- The encodings in units of two bytes. -/
def Encoding.IsWide : Encoding → Prop
  | utf16 | utf16Plain _ => True
  | _ => False

/-- Every other byte of the opening `<?` is zero, and the first byte tells the order. -/
theorem detect_opening (order : ByteOrder) (r : List Char) :
    detect (encodeUtf16 order ('<' :: '?' :: r)) = .utf16Plain order := by
  cases order with
  | big => rfl
  | little =>
    have hopening :
        bytesOccurIn [0x3C, 0x00, 0x3F, 0x00]
          ((encodeUtf16 .little ('<' :: '?' :: r)).take headerSize) = true := rfl
    have hheader : headerEncoding ((encodeUtf16 .little ('<' :: '?' :: r)).take headerSize) =
        .utf16Plain .little := by
      rw [headerEncoding, hopening, Bool.or_true]
      rfl
    exact hheader

/-- A document in units of two bytes is read again in the encoding that is detected. -/
theorem exists_detected {e : Encoding} (he : e.IsWide) {s : List Char} (hs : "<?".toList <+: s)
    (hr : '\r' ∉ s) :
    ∃ bs order, e.encode s = .ok bs ∧ detect bs = .utf16Plain order ∧
      readDocument (.utf16Plain order) bs = .ok s := by
  obtain ⟨r, rfl⟩ := hs
  cases e with
  | utf16 =>
    have hmark : '\r' ∉ mark :: ("<?".toList ++ r) :=
      fun h => (List.mem_cons.1 h).elim (by decide) hr
    exact ⟨_, .little, rfl, rfl,
      readDocument_of_decode (Encoding.decode_encodeUtf16 .little _) hmark⟩
  | utf16Plain order =>
    exact ⟨_, order, rfl, detect_opening order r,
      readDocument_of_decode (Encoding.decode_encodeUtf16 order _) hr⟩
  | _ => cases he

end Codec

namespace Files

open Codec FileTree

namespace RecodeJob

variable {job : RecodeJob} {t t' : FileTree} {cwd : Location} {bs : List UInt8}

/-! ## Changes that succeed -/

theorem text_eq {source target : Encoding} {named : Option Encoding} {text : List Char}
    (htarget : encodingNamed job.target = .ok target)
    (hnamed : job.source.mapM encodingNamed = .ok named) (hread : t.read cwd job.input = .ok bs)
    (hsource : named.getD (detect bs) = source) (htext : recodedText source target bs = .ok text) :
    job.text t cwd = .ok (⟨source, target⟩, text) := by
  rw [RecodeJob.text, htarget, hnamed, hread]
  simp only [bind, Except.bind, Except.mapError, hsource, htext]
  rfl

/-- The file is emptied first, but the second write decides. -/
theorem run_eq {done : Recoded} {text : List Char} (htext : job.text t cwd = .ok (done, text))
    (hbytes : done.target.encode text = .ok bs) (hwrite : t.write cwd job.output bs = .ok t') :
    job.run t cwd = (.ok done, t') := by
  obtain ⟨emptied, hemptied⟩ := exists_write_of_write hwrite []
  rw [write_write hwrite] at hemptied
  have hwritten := (write_write hemptied bs).trans hwrite
  rw [run, htext]
  simp only [hemptied, hbytes, hwritten]

end RecodeJob

theorem encodingNamed_utf8 : encodingNamed "utf-8" = .ok .utf8 := by decide +kernel

/-- **A change to UTF-16 is undone.** Take a file with the bytes of a document in UTF-8 that has a
declaration in which every label is `encoding="UTF-8"`, and line feeds for line ends. Its encoding
can be changed to UTF-16, with a mark or in either order of bytes: the file has the bytes of the
document in the new encoding then, with the new name in its declaration. A change to UTF-8 without a
word on the old encoding succeeds too, finds out the order of the bytes, and leaves the whole tree
of files as it was at the start. -/
theorem run_run_utf8 {t : FileTree} {cwd : Location} {p : Pathname} {s : List Char}
    (hread : t.read cwd p = .ok (encodeUtf8 s)) (hlabelled : Labelled .utf8 s) (hr : '\r' ∉ s)
    {source target : String} {e : Encoding} (hsource : encodingNamed source = .ok .utf8)
    (htarget : encodingNamed target = .ok e) (he : e.IsWide) :
    ∃ t₁ bs order, RecodeJob.run ⟨p, target, p, some source⟩ t cwd = (.ok ⟨.utf8, e⟩, t₁) ∧
      e.encode (relabel e s) = .ok bs ∧ t₁.read cwd p = .ok bs ∧
      RecodeJob.run ⟨p, "utf-8", p, none⟩ t₁ cwd = (.ok ⟨.utf16Plain order, .utf8⟩, t) := by
  obtain ⟨r, hs⟩ := hlabelled.starts
  have hopening : "<?".toList <+: relabel e s :=
    List.IsPrefix.trans (by decide : "<?".toList <+: "<?xml".toList) (hlabelled.isPrefix_relabel e)
  obtain ⟨bs, order, hbytes, hdetect, hdocument⟩ :=
    exists_detected he hopening (hlabelled.not_mem_relabel hr e)
  -- there is no mark to drop, since the document starts with its declaration
  have hforth : recodedText .utf8 e (encodeUtf8 s) = .ok (relabel e s) := by
    have hmark : dropMark s = s := by rw [← hs]; rfl
    rw [recodedText, readDocument_of_decode (Encoding.decode_encodeUtf8 s) hr, hmark]
    rfl
  have hback : recodedText (.utf16Plain order) .utf8 bs = .ok s := by
    rw [recodedText, hdocument]
    exact congrArg Except.ok (hlabelled.relabel_relabel e)
  have hne : encodeUtf8 s ≠ [] := by
    rw [← hs]
    exact List.cons_ne_nil _ _
  obtain ⟨id, hid, -⟩ := exists_of_read hread
  have hwrite := write_of_file? hid bs
  have hread₁ := read_of_write (keeps_of_read hread hne) hwrite
  have hwrite₁ := (write_write hwrite (encodeUtf8 s)).trans (write_of_read hread)
  have hnamed : (some source).mapM encodingNamed = .ok (some .utf8) := by
    simp only [Option.mapM_some, hsource]
    rfl
  have hunnamed : (none : Option String).mapM encodingNamed = .ok none := rfl
  refine ⟨_, bs, order, RecodeJob.run_eq ?_ hbytes hwrite, hbytes, hread₁,
    RecodeJob.run_eq ?_ rfl hwrite₁⟩
  · exact RecodeJob.text_eq htarget hnamed hread rfl hforth
  · exact RecodeJob.text_eq encodingNamed_utf8 hunnamed hread₁ hdetect hback

/-- A document with a character beyond the first plane, and with a label and the end of a
declaration in its text. -/
def clefDocument : List Char :=
  "<?xml version=\"1.0\" encoding=\"UTF-8\"?>\n<t>𝄞 encoding='x' ?></t>\n".toList

theorem run_run_utf8_clef : Labelled .utf8 clefDocument ∧ ∃ t₁ bs order,
    RecodeJob.run ⟨⟨0, ["f.xml"]⟩, "utf-16-be", ⟨0, ["f.xml"]⟩, some "utf-8"⟩
        ⟨[(["f.xml"], .file 0)], [encodeUtf8 clefDocument]⟩ [] =
          (.ok ⟨.utf8, .utf16Plain .big⟩, t₁) ∧
      (Encoding.utf16Plain .big).encode (relabel (.utf16Plain .big) clefDocument) = .ok bs ∧
        t₁.read [] ⟨0, ["f.xml"]⟩ = .ok bs ∧
      RecodeJob.run ⟨⟨0, ["f.xml"]⟩, "utf-8", ⟨0, ["f.xml"]⟩, none⟩ t₁ [] =
        (.ok ⟨.utf16Plain order, .utf8⟩, ⟨[(["f.xml"], .file 0)], [encodeUtf8 clefDocument]⟩) := by
  have hlabelled : Labelled .utf8 clefDocument := by decide +kernel
  exact ⟨hlabelled,
    run_run_utf8 (by decide +kernel) hlabelled (by decide +kernel) encodingNamed_utf8
      (by decide +kernel) trivial⟩

end Files

end Partitura
