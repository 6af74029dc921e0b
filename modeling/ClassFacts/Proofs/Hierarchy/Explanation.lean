import ClassFacts.Proofs.Hierarchy.Ceiling

namespace ClassFacts.Hierarchy

variable {config : Config} {classes : Registry}

end ClassFacts.Hierarchy
