import ShaderChain.Chain.Report
import ShaderChain.Proofs.JsonText

/-!
# The answers survive their JSON form

A client that reads an answer gets the value that the service wrote, whatever the texts in it are
and however their characters are escaped. So the JSON forms of different values differ, and a text
that another program wrote means the same after the service has read it and written it anew
(`Json.Faithful`). For each of the five records it is enough that its members fill its draft in
the order in which they are written.
-/

namespace ShaderChain

namespace Json

variable {α : Type}

/-- A form and a reader that agree. -/
structure Faithful (read : Reader α) (toJson : α → Json) : Prop where
  /-- What is written is read back. -/
  written : ∀ a, readText read (toJson a).render = .ok a
  /-- What is read from any text can be written and read again. -/
  again : ∀ t a, readText read t = .ok a → readText read (toJson a).render = .ok a
  /-- Different values have different texts. -/
  injective : Function.Injective fun a => (toJson a).render

/-- That every value is read back from its form is enough: the two other laws follow from it. -/
theorem Faithful.of_reads {read : Reader α} {toJson : α → Json}
    (h : ∀ a, Reads read (toJson a) a) : Faithful read toJson where
  written a := readText_render (h a)
  again _ a _ := readText_render (h a)
  injective a b hab := by
    -- equal texts are read as one value, and each is read as the value that it was written for
    have hread : readText read (toJson a).render = readText read (toJson b).render :=
      congrArg (readText read) hab
    rw [readText_render (h a), readText_render (h b)] at hread
    exact Except.ok.inj hread

end Json

open Json Json.Record

/-- A report is read back from its form, its three texts in the order in which they are written. -/
theorem Report.reads (r : Report) : Reads Report.record.read r.toJson r :=
  reads_obj Report.record
    -- one member after another: its name is that of the next field, which is still empty
    (.cons rfl rfl (Field.reads_of (text_reads r.cmd) _) <|
      .cons rfl rfl (Field.reads_of (text_reads r.stdout) _) <|
      .cons rfl rfl (Field.reads_of (text_reads r.stderr) _) <|
      .nil _)
    rfl

/-- So is a compilation; its report is read by the reader of reports. -/
theorem Compilation.reads (r : Compilation) : Reads Compilation.record.read r.toJson r :=
  reads_obj Compilation.record
    (.cons rfl rfl (Field.reads_of (flag_reads r.success) _) <|
      .cons rfl rfl (Field.reads_of (text_reads r.output) _) <|
      .cons rfl rfl (Field.reads_of r.error.reads _) <|
      .nil _)
    rfl

/-- A disassembly is read back from its form. -/
theorem Disassembly.reads (r : Disassembly) : Reads Disassembly.record.read r.toJson r :=
  reads_obj Disassembly.record
    (.cons rfl rfl (Field.reads_of (flag_reads r.success) _) <|
      .cons rfl rfl (Field.reads_of (text_reads r.data) _) <|
      .nil _)
    rfl

theorem Steps.reads (r : Steps) : Reads Steps.record.read r.toJson r :=
  reads_obj Steps.record
    (.cons rfl rfl (Field.reads_of (flag_reads r.assemble) _) <|
      .cons rfl rfl (Field.reads_of (flag_reads r.val) _) <|
      .cons rfl rfl (Field.reads_of (flag_reads r.opt) _) <|
      .cons rfl rfl (Field.reads_of (flag_reads r.dis) _) <|
      .nil _)
    rfl

/-- A validation is read back from its form, with its steps and its report in it. -/
theorem Validation.reads (r : Validation) : Reads Validation.record.read r.toJson r :=
  reads_obj Validation.record
    (.cons rfl rfl (Field.reads_of (flag_reads r.success) _) <|
      .cons rfl rfl (Field.reads_of (text_reads r.spirv) _) <|
      .cons rfl rfl (Field.reads_of r.commands.reads _) <|
      .cons rfl rfl (Field.reads_of r.error.reads _) <|
      .nil _)
    rfl

/-- The five records that a client is answered with are read back as they were written. -/
theorem Json.payloads_faithful :
    Faithful Report.record.read Report.toJson ∧
      Faithful Compilation.record.read Compilation.toJson ∧
      Faithful Disassembly.record.read Disassembly.toJson ∧
      Faithful Steps.record.read Steps.toJson ∧
      Faithful Validation.record.read Validation.toJson :=
  ⟨.of_reads Report.reads, .of_reads Compilation.reads, .of_reads Disassembly.reads,
    .of_reads Steps.reads, .of_reads Validation.reads⟩

/-- A text may spell a character as a pair of escapes, and the record as an array. -/
example : readText Report.record.read "[\"\\uD834\\udd1e\", \"\", \"\"]" =
    .ok { cmd := "𝄞" } := by
  cbv

end ShaderChain
