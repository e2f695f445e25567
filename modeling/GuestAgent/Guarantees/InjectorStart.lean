import GuestAgent.Guarantees.ArgumentVector
import GuestAgent.Source.WinMain

/-!
What the injector starts, in whatever order its calls and the steps of the new process come.

The process is created suspended and only resumed with the DLL in its import table. Between any two
calls there is one assertion about it, which neither the process itself nor its end can break.

The file is handed to Windows as a command line, and not in quotes: a part of its path in front of
a blank is taken for the program where it names one.
-/
namespace GuestAgent.Guarantees.InjectorStart
open Library Library.RelyGuarantee Source Source.WinMain Source.FirstProcess

/-- The path ends in `.msi`, in either case. -/
def IsPackage (path : LPCSTR) : Prop := literal ".msi" <:+ path.map tolower

instance (path : LPCSTR) : Decidable (IsPackage path) :=
  inferInstanceAs (Decidable (_ <:+ _))

/-- The process runs the file: a package by way of msiexec, any other file as the program Windows
takes its path for. -/
def Runs (searchPath : LPCSTR → Option LPCSTR) (path : LPCSTR) (p : FirstProcess) : Prop :=
  if IsPackage path then
    (∃ location, p.image = some (location ++ literal "msiexec.exe")) ∧
      p.commandLine = msiArguments path
  else p.image = imageOf searchPath none path ∧ p.commandLine = path

/-- It was created for the file, and is suspended; `hooked` tells about its import table. -/
def Held (searchPath : LPCSTR → Option LPCSTR) (path : LPCSTR) (hooked : Bool)
    (p : FirstProcess) : Prop :=
  p.created = true ∧ p.suspendCount = 1 ∧ p.started = false ∧ p.hooked = hooked ∧
    Runs searchPath path p

/-- It may run. -/
def Running (searchPath : LPCSTR → Option LPCSTR) (path : LPCSTR) (p : FirstProcess) : Prop :=
  p.created = true ∧ p.hooked = true ∧ Runs searchPath path p

/-- What holds at all times. -/
def Always (searchPath : LPCSTR → Option LPCSTR) (path : LPCSTR) (p : FirstProcess) : Prop :=
  (p.started = true → p.hooked = true) ∧ (p.created = true → Runs searchPath path p)

variable {searchPath : LPCSTR → Option LPCSTR} {path : LPCSTR}

theorem Held.always {hooked : Bool} {p : FirstProcess} (held : Held searchPath path hooked p) :
    Always searchPath path p :=
  ⟨fun started => absurd held.2.2.1 (by simp [started]), fun _ => held.2.2.2.2⟩

theorem Running.always {p : FirstProcess} (running : Running searchPath path p) :
    Always searchPath path p :=
  ⟨fun _ => running.2.1, fun _ => running.2.2⟩

/-! ### The injections into services -/

end GuestAgent.Guarantees.InjectorStart
