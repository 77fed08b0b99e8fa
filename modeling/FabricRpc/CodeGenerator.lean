import FabricRpc.GeneratedNames
import FabricRpc.V1.Generator.Lexical
import FabricRpc.V2.Generator.Lexical

namespace FabricRpc

open Cpp Lib Printer

-- The files of a directory. A stream replaces what a file held.
abbrev Directory := Bytes → Option Bytes

def Directory.write (dir : Directory) (name text : Bytes) : Directory :=
  Function.update dir name (some text)

namespace V1.CodeGenerator

def headerName (name : Bytes) : Bytes := getProtoNameNoExt name ++ lit ".fabricrpc.h"

def ccName (name : Bytes) : Bytes := getProtoNameNoExt name ++ lit ".fabricrpc.cc"

def generate (name : Bytes) (file : Pb.FileDescriptor) (dir : Directory) : Directory :=
  (dir.write (headerName name) (PbGen.generateHeaderContent name file)).write (ccName name)
    (PbGen.generateCCContent name file)

end V1.CodeGenerator

namespace V2.CodeGenerator

def headerName (name : Bytes) : Bytes := getProtoNameNoExt name ++ lit ".fabricrpc2.h"

def ccName (name : Bytes) : Bytes := getProtoNameNoExt name ++ lit ".fabricrpc2.cc"

def headerText (name : Bytes) (file : Pb.FileDescriptor) : Bytes :=
  PbGenMetaHeader.generateContent name ++ (PbGenClientHeader.generateContent file).output ++
    (PbGenServerHeader.generateContent file).output

-- Nothing is printed for the source.
def pbGenClientCC : Bytes := []

def pbGenServerCC : Bytes := []

def generate (name : Bytes) (file : Pb.FileDescriptor) (dir : Directory) : Directory :=
  (dir.write (headerName name) (headerText name file)).write (ccName name)
    (pbGenClientCC ++ pbGenServerCC)

end V2.CodeGenerator

inductive Plugin where
  | fabricRpc
  | fabricRpc2
  deriving DecidableEq

-- A run of a plugin on a file.
structure Job where
  plugin : Plugin
  name : Bytes
  file : Pb.FileDescriptor

namespace Job

def generate (dir : Directory) (job : Job) : Directory :=
  match job.plugin with
  | .fabricRpc => V1.CodeGenerator.generate job.name job.file dir
  | .fabricRpc2 => V2.CodeGenerator.generate job.name job.file dir

-- The files that it writes.
def outputs (job : Job) : List (Bytes × Bytes) :=
  match job.plugin with
  | .fabricRpc =>
      [(V1.CodeGenerator.headerName job.name, V1.PbGen.generateHeaderContent job.name job.file),
        (V1.CodeGenerator.ccName job.name, V1.PbGen.generateCCContent job.name job.file)]
  | .fabricRpc2 =>
      [(V2.CodeGenerator.headerName job.name, V2.CodeGenerator.headerText job.name job.file),
        (V2.CodeGenerator.ccName job.name,
          V2.CodeGenerator.pbGenClientCC ++ V2.CodeGenerator.pbGenServerCC)]

-- Where a job writes does not depend on what is in the file.
def Clash (job other : Job) : Prop :=
  job.plugin = other.plugin ∧ getProtoNameNoExt job.name = getProtoNameNoExt other.name

theorem generate_eq (dir : Directory) (job : Job) : job.generate dir =
    job.outputs.foldl (fun dir output => dir.write output.1 output.2) dir := by
  obtain ⟨plugin, name, file⟩ := job
  cases plugin with
  | fabricRpc => rfl
  | fabricRpc2 => rfl

section Writes

variable {writes : List (Bytes × Bytes)} {dir : Directory} {name text : Bytes}

theorem write_other (h : ∀ write ∈ writes, write.1 ≠ name) :
    writes.foldl (fun dir write => dir.write write.1 write.2) dir name = dir name := by
  induction writes generalizing dir with
  | nil => rfl
  | cons write writes ih =>
      rw [List.foldl_cons, ih fun other hother => h other (List.mem_cons_of_mem _ hother)]
      exact Function.update_of_ne (h write List.mem_cons_self).symm _ _

-- What is written under a name stays if nothing else is.
theorem write_kept (h : ∀ write ∈ writes, write.1 = name → write.2 = text)
    (hdir : dir name = some text ∨ ∃ write ∈ writes, write.1 = name) :
    writes.foldl (fun dir write => dir.write write.1 write.2) dir name = some text := by
  induction writes generalizing dir with
  | nil => exact hdir.resolve_right (by simp)
  | cons write writes ih =>
      rw [List.foldl_cons]
      apply ih fun other hother => h other (List.mem_cons_of_mem _ hother)
      by_cases hname : write.1 = name
      · left
        rw [Directory.write, hname, Function.update_self, h write List.mem_cons_self hname]
      · rcases hdir with hdir | ⟨other, hother, hsame⟩
        · left
          rw [Directory.write, Function.update_of_ne (Ne.symm hname), hdir]
        · rcases List.mem_cons.mp hother with rfl | hother
          · exact absurd hsame hname
          · exact .inr ⟨other, hother, hsame⟩

theorem mem_of_write
    (h : writes.foldl (fun dir write => dir.write write.1 write.2) dir name = some text) :
    dir name = some text ∨ ∃ write ∈ writes, write.1 = name ∧ write.2 = text := by
  induction writes generalizing dir with
  | nil => exact .inl h
  | cons write writes ih =>
      rw [List.foldl_cons] at h
      rcases ih h with hdir | ⟨other, hother, hsame⟩
      · by_cases hname : write.1 = name
        · rw [Directory.write, hname, Function.update_self, Option.some.injEq] at hdir
          exact .inr ⟨write, List.mem_cons_self, hname, hdir⟩
        · rw [Directory.write, Function.update_of_ne (Ne.symm hname)] at hdir
          exact .inl hdir
      · exact .inr ⟨other, List.mem_cons_of_mem _ hother, hsame⟩

end Writes

theorem run_eq (jobs : List Job) (dir : Directory) : jobs.foldl generate dir =
    (jobs.flatMap outputs).foldl (fun dir output => dir.write output.1 output.2) dir := by
  induction jobs generalizing dir with
  | nil => rfl
  | cons job jobs ih =>
      rw [List.foldl_cons, List.flatMap_cons, List.foldl_append, ih, generate_eq]

section Names

-- The extensions of the header and of the source.
def exts : Plugin → List Bytes
  | .fabricRpc => [lit ".fabricrpc.h", lit ".fabricrpc.cc"]
  | .fabricRpc2 => [lit ".fabricrpc2.h", lit ".fabricrpc2.cc"]

def extensions : List Bytes := exts .fabricRpc ++ exts .fabricRpc2

-- No extension ends in another one.
theorem eq_of_suffix : ∀ ext ∈ extensions, ∀ other ∈ extensions, ext <:+ other → ext = other := by
  decide

theorem append_extension_inj {base other ext last : Bytes} (hext : ext ∈ extensions)
    (hlast : last ∈ extensions) (h : base ++ ext = other ++ last) : base = other ∧ ext = last := by
  have hsame : ext = last := by
    rcases Nat.le_total ext.length last.length with hle | hle
    · have hsuffix : last <:+ base ++ ext := h ▸ List.suffix_append other last
      have hshort := List.suffix_of_suffix_length_le (List.suffix_append base ext) hsuffix hle
      exact eq_of_suffix _ hext _ hlast hshort
    · have hsuffix : ext <:+ other ++ last := h ▸ List.suffix_append base ext
      have hshort := List.suffix_of_suffix_length_le (List.suffix_append other last) hsuffix hle
      exact (eq_of_suffix _ hlast _ hext hshort).symm
  subst hsame
  exact ⟨List.append_cancel_right h, rfl⟩

theorem exts_subset (plugin : Plugin) : exts plugin ⊆ extensions := by
  cases plugin with
  | fabricRpc => exact List.subset_append_left _ _
  | fabricRpc2 => exact List.subset_append_right _ _

theorem plugin_of_exts {plugin other : Plugin} {ext : Bytes} (h : ext ∈ exts plugin)
    (hother : ext ∈ exts other) : plugin = other := by
  have hdisjoint : ∀ ext ∈ exts .fabricRpc, ext ∉ exts .fabricRpc2 := by decide
  cases plugin with
  | fabricRpc =>
      cases other with
      | fabricRpc => rfl
      | fabricRpc2 => exact absurd hother (hdisjoint ext h)
  | fabricRpc2 =>
      cases other with
      | fabricRpc => exact absurd h (hdisjoint ext hother)
      | fabricRpc2 => rfl

theorem outputs_names (job : Job) :
    job.outputs.map Prod.fst = (exts job.plugin).map (getProtoNameNoExt job.name ++ ·) := by
  obtain ⟨plugin, name, file⟩ := job
  cases plugin with
  | fabricRpc => rfl
  | fabricRpc2 => rfl

variable {job other : Job} {output more : Bytes × Bytes}

theorem clash_of_outputs (houtput : output ∈ job.outputs) (hmore : more ∈ other.outputs)
    (h : output.1 = more.1) : Clash job other := by
  have hname := List.mem_map_of_mem (f := Prod.fst) houtput
  have hsame := List.mem_map_of_mem (f := Prod.fst) hmore
  rw [outputs_names, List.mem_map] at hname hsame
  obtain ⟨ext, hext, hname⟩ := hname
  obtain ⟨last, hlast, hsame⟩ := hsame
  obtain ⟨hbase, rfl⟩ := append_extension_inj (exts_subset _ hext) (exts_subset _ hlast)
    (hname.trans (h.trans hsame.symm))
  exact ⟨plugin_of_exts hext hlast, hbase⟩

theorem outputs_nodup (job : Job) : (job.outputs.map Prod.fst).Nodup := by
  have hexts : (exts job.plugin).Nodup := by
    cases job.plugin with
    | fabricRpc => decide
    | fabricRpc2 => decide
  rw [outputs_names]
  exact hexts.map (List.append_right_injective _)

end Names

-- What is there after some jobs: their files, and what was there before.
structure Kept (jobs : List Job) (dir after : Directory) : Prop where
  own : ∀ job ∈ jobs, ∀ output ∈ job.outputs, after output.1 = some output.2
  other : ∀ name, (∀ job ∈ jobs, ∀ output ∈ job.outputs, output.1 ≠ name) → after name = dir name

-- The plugins may run on any files in any order, as long as no two of the files
-- have the same name up to the extension.
theorem files_kept_iff (jobs : List Job) (dir : Directory) :
    (∀ order : List Job, order.Perm jobs → Kept jobs dir (order.foldl generate dir)) ↔
      ∀ job ∈ jobs, ∀ other ∈ jobs, job.Clash other → job.outputs = other.outputs := by
  constructor
  · intro h job hjob other hother hclash
    have hown := (h jobs (List.Perm.refl _)).own
    have hread (job : Job) (hjob : job ∈ jobs) : (job.outputs.map Prod.fst).map (fun name =>
        (name, (jobs.foldl generate dir name).getD [])) = job.outputs := by
      rw [List.map_map]
      conv_rhs => rw [← List.map_id job.outputs]
      apply List.map_congr_left
      intro output houtput
      simp [hown job hjob output houtput]
    have hnames : job.outputs.map Prod.fst = other.outputs.map Prod.fst := by
      rw [outputs_names, outputs_names, hclash.1, hclash.2]
    rw [← hread job hjob, ← hread other hother, hnames]
  · intro h order hperm
    constructor
    · intro job hjob output houtput
      rw [run_eq]
      apply write_kept
      · intro write hwrite hname
        obtain ⟨other, hother, hwrite⟩ := List.mem_flatMap.mp hwrite
        have hclash := clash_of_outputs hwrite houtput hname
        rw [h other (hperm.mem_iff.mp hother) job hjob hclash] at hwrite
        rw [List.inj_on_of_nodup_map job.outputs_nodup hwrite houtput hname]
      · exact .inr ⟨output, List.mem_flatMap.mpr ⟨job, hperm.mem_iff.mpr hjob, houtput⟩, rfl⟩
    · intro name hname
      rw [run_eq, write_other]
      intro write hwrite
      obtain ⟨other, hother, hwrite⟩ := List.mem_flatMap.mp hwrite
      exact hname other (hperm.mem_iff.mp hother) write hwrite

theorem outputs_closed (job : Job) {base : Bytes} (h : Plain base)
    (hname : job.name = base ++ lit ".proto") : ∀ output ∈ job.outputs, Closed output.2 := by
  obtain ⟨plugin, name, file⟩ := job
  obtain rfl : name = base ++ lit ".proto" := hname
  cases plugin with
  | fabricRpc =>
      simp only [outputs, List.forall_mem_cons, List.not_mem_nil, false_implies, implies_true,
        and_true]
      exact ⟨V1.PbGen.generateHeaderContent_closed h file, V1.PbGen.generateCCContent_closed h file⟩
  | fabricRpc2 =>
      have hmeta := V2.PbGenMetaHeader.generateContent_closed h
      have hclient := hmeta.append (V2.PbGenClientHeader.generateContent_closed file)
      simp only [outputs, List.forall_mem_cons, List.not_mem_nil, false_implies, implies_true,
        and_true]
      exact ⟨hclient.append (V2.PbGenServerHeader.generateContent_closed file), rfl⟩

-- Whatever is in the files that the plugins are run on, what they write reads as
-- C++: comments and strings end, and brackets match.
theorem generate_keeps_closed {jobs : List Job} {dir : Directory}
    (hjobs : ∀ job ∈ jobs, ∃ base, Plain base ∧ job.name = base ++ lit ".proto")
    (hdir : ∀ name text, dir name = some text → Closed text) :
    ∀ name text, jobs.foldl generate dir name = some text → Closed text := by
  intro name text htext
  rw [run_eq] at htext
  rcases mem_of_write htext with hbefore | ⟨output, houtput, -, rfl⟩
  · exact hdir name text hbefore
  · obtain ⟨job, hjob, houtput⟩ := List.mem_flatMap.mp houtput
    obtain ⟨base, hbase, hname⟩ := hjobs job hjob
    exact outputs_closed job hbase hname output houtput

def hello (plugin : Plugin) : Job :=
  ⟨plugin, lit "helloworld.proto", fileOf [V2.helloPackage]⟩

theorem generate_keeps_closed_hello : ∃ text,
    [hello .fabricRpc, hello .fabricRpc2].foldl generate (fun _ => none)
      (lit "helloworld.fabricrpc.h") = some text ∧ Closed text := by
  have hbase : Plain (lit "helloworld") := by
    constructor
    repeat decide
  have hnames : ∀ job ∈ [hello .fabricRpc, hello .fabricRpc2],
      ∃ base, Plain base ∧ job.name = base ++ lit ".proto" := by
    simp only [List.forall_mem_cons, List.not_mem_nil, false_implies, implies_true, and_true]
    exact ⟨⟨_, hbase, rfl⟩, ⟨_, hbase, rfl⟩⟩
  have hempty : ∀ name text, (fun _ => none : Directory) name = some text → Closed text :=
    fun _ _ htext => absurd htext (by simp)
  obtain ⟨text, htext⟩ : ∃ text, [hello .fabricRpc, hello .fabricRpc2].foldl generate
      (fun _ => none) (lit "helloworld.fabricrpc.h") = some text := ⟨_, rfl⟩
  exact ⟨text, htext, generate_keeps_closed hnames hempty _ _ htext⟩

end Job

end FabricRpc
