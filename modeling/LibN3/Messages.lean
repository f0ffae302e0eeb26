import LibN3.Answers

/-! What comes back from the wrappers, where they come back, and the texts of their errors. -/
namespace LibN3.Linux
open Error Net Net.Dns

def busy : System := ⟨fun _ => .error EAGAIN, fun _ _ _ => .failed EAI_FAIL 0 (by decide)⟩

end LibN3.Linux
